import CheckerTrials.Proofs.Files.Edit
import Mathlib.Data.List.Basic

/-!
# Reading folders and files

What is listed in a folder of a well-formed disk is what stands directly below its location, each under its
name and once (`mem_children`, `nodup_children`).  The other lemmas say what it takes to list a folder and to
read a file.
-/

set_option autoImplicit false

namespace CheckerTrials
namespace Disk

variable {d : Disk} {l : Location} {p : Path}

/-! ## Folders -/

/-- What is listed has a location, if no location is listed twice. -/
theorem get?_of_mem_of_nodup (hnodup : (d.entries.map Prod.fst).Nodup) (hl : l ≠ []) {e : Entry}
    (h : (l, e) ∈ d.entries) : d.get? l = some e := by
  rw [get?, if_neg hl]
  obtain ⟨before, after, hsplit⟩ := List.append_of_mem h
  refine List.lookup_eq_some_iff.2 ⟨before, after, hsplit, fun q hq => ?_⟩
  rw [hsplit, List.map_append, List.map_cons, List.nodup_append] at hnodup
  rw [bne_iff_ne]
  exact fun he => hnodup.2.2 q.1 (List.mem_map_of_mem hq) l List.mem_cons_self he.symm

theorem WellFormed.get?_of_mem (hd : d.WellFormed) {e : Entry} (h : (l, e) ∈ d.entries) :
    d.get? l = some e :=
  get?_of_mem_of_nodup hd.nodup (hd.parent l (List.mem_map_of_mem h)).1 h

theorem mem_entries_iff (hd : d.WellFormed) (hl : l ≠ []) {e : Entry} :
    (l, e) ∈ d.entries ↔ d.get? l = some e :=
  ⟨hd.get?_of_mem, mem_of_get? hl⟩

/-- What an entry contributes to the listing of the folder at `l`. -/
theorem child?_eq_some {k : Location} {e f : Entry} {name : String} :
    (if k ≠ [] ∧ k.dropLast = l then k.getLast?.map fun name => (name, e) else none) = some (name, f) ↔
      k = l ++ [name] ∧ e = f := by
  constructor
  · intro h
    rw [Option.ite_none_right_eq_some, Option.map_eq_some_iff] at h
    obtain ⟨⟨-, rfl⟩, last, hlast, he⟩ := h
    obtain ⟨rfl, rfl⟩ := Prod.mk.inj he
    exact ⟨(List.dropLast_append_getLast? _ hlast).symm, rfl⟩
  · rintro ⟨rfl, rfl⟩
    simp

/-- **What is in a folder** is what has a location directly below it. -/
theorem WellFormed.mem_children (hd : d.WellFormed) {name : String} {e : Entry} :
    (name, e) ∈ d.children l ↔ d.get? (l ++ [name]) = some e := by
  rw [← mem_entries_iff hd (by simp), children, List.mem_filterMap]
  constructor
  · rintro ⟨⟨k, f⟩, hmem, hk⟩
    obtain ⟨rfl, rfl⟩ := child?_eq_some.1 hk
    exact hmem
  · intro hmem
    exact ⟨(l ++ [name], e), hmem, child?_eq_some.2 ⟨rfl, rfl⟩⟩

/-- No name is listed twice. -/
theorem WellFormed.nodup_children (hd : d.WellFormed) : ((d.children l).map Prod.fst).Nodup := by
  have hkeys := List.pairwise_map.1 hd.nodup
  rw [List.Nodup, List.pairwise_map, children, List.pairwise_filterMap]
  refine hkeys.imp fun {q q'} hne x hx y hy hxy => hne ?_
  obtain ⟨hq, -⟩ := child?_eq_some.1 hx
  obtain ⟨hq', -⟩ := child?_eq_some.1 hy
  rw [hq, hq', hxy]

theorem list_eq_ok_iff {es : List (String × Entry)} :
    d.list p = .ok es ↔ ∃ l, d.locate p = .ok l ∧ d.get? l = some .folder ∧ d.children l = es := by
  rw [list, find]
  cases d.locate p with
  | error cause => simp [bind, Except.bind]
  | ok l =>
    cases hl : d.get? l with
    | none => simp [bind, Except.bind, hl]
    | some e =>
      cases e with
      | file content executable =>
        by_cases hp : p.namesFolder = true
        · simp [bind, Except.bind, hl, hp]
        · simp [bind, Except.bind, hl, hp]
      | folder => simp [bind, Except.bind, pure, Except.pure, hl]

theorem isFolder_iff : d.isFolder p = true ↔ ∃ l, d.locate p = .ok l ∧ d.get? l = some .folder := by
  have hlist : d.isFolder p = true ↔ d.find p = .ok .folder := by
    rw [isFolder]
    split
    · rename_i hfind
      simp [hfind]
    · rename_i hfind
      simp only [Bool.false_eq_true, false_iff]
      exact hfind
  rw [hlist, find]
  cases d.locate p with
  | error cause => simp [bind, Except.bind]
  | ok l =>
    cases hl : d.get? l with
    | none => simp [bind, Except.bind, hl]
    | some e =>
      cases e with
      | folder => simp [bind, Except.bind, hl]
      | file content executable =>
        by_cases hp : p.namesFolder = true
        · simp [bind, Except.bind, hl, hp]
        · simp [bind, Except.bind, hl, hp]

/-- What can be listed is a folder. -/
theorem exists_list_iff : (∃ es, d.list p = .ok es) ↔ d.isFolder p = true := by
  rw [isFolder_iff]
  constructor
  · rintro ⟨es, h⟩
    obtain ⟨l, hl, hfolder, -⟩ := list_eq_ok_iff.1 h
    exact ⟨l, hl, hfolder⟩
  · rintro ⟨l, hl, hfolder⟩
    exact ⟨_, list_eq_ok_iff.2 ⟨l, hl, hfolder, rfl⟩⟩

/-- A folder has a path that is not empty. -/
theorem ne_empty_of_isFolder (h : d.isFolder p = true) : p.text ≠ "" := by
  obtain ⟨_, hl, -⟩ := isFolder_iff.1 h
  exact (locate_eq_ok_iff.1 hl).2.1

/-! ## Files -/

theorem find_eq_file_iff {content : ByteArray} {executable : Bool} :
    d.find p = .ok (.file content executable) ↔
      p.namesFolder = false ∧ ∃ l, d.locate p = .ok l ∧ d.get? l = some (.file content executable) := by
  rw [find]
  cases d.locate p with
  | error cause => simp [bind, Except.bind]
  | ok l =>
    cases hl : d.get? l with
    | none => simp [bind, Except.bind, hl]
    | some e =>
      cases e with
      | folder => simp [bind, Except.bind, hl]
      | file before x =>
        by_cases hp : p.namesFolder = true
        · simp [bind, Except.bind, hl, hp]
        · simp [bind, Except.bind, hl, hp]

/-- A text that was written can be read. -/
theorem readText_of_get? {s : String} {executable : Bool} (hp : p.namesFolder = false)
    (hlocate : d.locate p = .ok l) (hl : d.get? l = some (.file s.toUTF8 executable)) :
    d.readText p = .ok s := by
  have hfind := find_eq_file_iff.2 ⟨hp, l, hlocate, hl⟩
  have hbytes : d.readBytes p = .ok s.toUTF8 := by
    rw [readBytes, hfind]
    rfl
  rw [readText, hbytes, bind_ok]
  have hutf : String.fromUTF8? s.toUTF8 = some s := dif_pos s.isValidUTF8
  rw [hutf]

/-- Where no file is, no text can be read. -/
theorem readText_eq_error (h : ∀ content executable, d.find p ≠ .ok (.file content executable)) :
    ∃ cause, d.readText p = .error cause := by
  cases hfind : d.find p with
  | error cause => exact ⟨cause, by rw [readText, readBytes, hfind]; rfl⟩
  | ok e =>
    cases e with
    | folder => exact ⟨.isADirectory, by rw [readText, readBytes, hfind]; rfl⟩
    | file content executable => exact absurd hfind (h content executable)

end Disk

end CheckerTrials
