import CheckerTrials.Proofs.Files.Differing

/-!
# The order of listings

In which order a folder lists what is in it has no meaning.  Two disks with the same files and folders that list them
in different orders are related by `Disk.Relists`: paths lead to the same on both (`Relists.find_eq`), and whatever is
made of a listing without regard to its order is the same on both (`Relists.map_list_eq`).  So it is with any two disks
whose entries are the same in another order (`Relists.of_perm`).
-/

set_option autoImplicit false

namespace CheckerTrials.Disk

/-- The same stands everywhere on both disks, but folders may be listed in another order. -/
structure Relists (d e : Disk) : Prop where
  /-- The working folder is the same. -/
  home : e.home = d.home
  /-- Everywhere stands the same. -/
  get? : ∀ l, e.get? l = d.get? l
  /-- The same is listed. -/
  children : ∀ l, (e.children l).Perm (d.children l)

variable {d e : Disk}

/-- **Entries in another order** are listed in another order. -/
theorem Relists.of_perm (hnodup : (d.entries.map Prod.fst).Nodup) (hhome : e.home = d.home)
    (h : e.entries.Perm d.entries) : Relists d e where
  home := hhome
  get? l := by
    by_cases hl : l = []
    · rw [hl, get?_nil, get?_nil]
    · have hnodup' : (e.entries.map Prod.fst).Nodup := (h.map Prod.fst).nodup_iff.2 hnodup
      refine Option.ext fun entry => ⟨fun he => ?_, fun hd => ?_⟩
      · exact get?_of_mem_of_nodup hnodup hl (h.mem_iff.1 (mem_of_get? hl he))
      · exact get?_of_mem_of_nodup hnodup' hl (h.mem_iff.2 (mem_of_get? hl hd))
  children _ := h.filterMap _

namespace Relists

theorem walk_eq (h : Relists d e) (here : Location) (steps : List String) : e.walk here steps = d.walk here steps := by
  induction steps generalizing here with
  | nil => rfl
  | cons step rest ih =>
    rw [walk, walk, h.get?]
    simp only [ih]

theorem locate_eq (h : Relists d e) (p : Path) : e.locate p = d.locate p := by
  rw [locate, locate, h.home, h.walk_eq]

/-- **Paths lead to the same.** -/
theorem find_eq (h : Relists d e) (p : Path) : e.find p = d.find p := by
  rw [find, find, h.locate_eq]
  simp only [h.get?]

theorem sameFile (h : Relists d e) (p : Path) : SameFile p d e := fun content executable => by
  rw [h.find_eq]

/-- **What is made of a listing** without regard to its order is the same. -/
theorem map_list_eq (h : Relists d e) (p : Path) {α : Type} {f : List (String × Entry) → α}
    (hf : ∀ es es' : List (String × Entry), es'.Perm es → f es' = f es) : (e.list p).map f = (d.list p).map f := by
  rw [list, list, h.find_eq, h.locate_eq]
  cases d.find p with
  | error cause => rfl
  | ok entry =>
    cases entry with
    | file content executable => rfl
    | folder =>
      cases d.locate p with
      | error cause => rfl
      | ok l => exact congrArg Except.ok (hf _ _ (h.children l))

end Relists

end CheckerTrials.Disk
