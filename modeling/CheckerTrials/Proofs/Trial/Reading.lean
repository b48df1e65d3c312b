import CheckerTrials.Proofs.Files.Beside
import CheckerTrials.Proofs.Plan.Names
import CheckerTrials.Proofs.Trial.WellFormed

/-!
# What reading results comes down to

The reader of a run judges it first and then looks at its result.  The other way round it comes to the same, and then
there is one branch only in which a failed trial is made (`value_loadRun_eq`); what is known about runs follows from that.
A run whose command line is known is read, as one trial (`exists_loadRun`), and where neither a result nor a
command line is, nothing is read (`loadRun_eq_none`).  A success is read from a result, and from nothing else
(`loadRun_eq_success_iff`).

The runs of an iteration are read in the order of
their numbers, and iterations in the order of theirs, so that if the numbers are those up to a bound, what is
read is in the order of these numbers, whatever else is in the folders, as long as it holds no runs
(`value_loadIteration`, `value_loadResults`).
-/

set_option autoImplicit false

namespace CheckerTrials

open Disk CheckerTrials.Path

/-! ## One run -/

/-- The command line that was written beside a result is looked at first. -/
theorem recordedInvocation?_of_setup {d : Disk} {base : Path} {s : String} {i : Invocation}
    (hread : d.readText (base.withSuffix setupSuffix) = .ok s)
    (hparse : Invocation.parse (String.ofList (Text.trim s.toList)) = .ok i) :
    recordedInvocation? d base = some i := by
  rw [recordedInvocation?, invocationLines, hread]
  have hfirst : (Invocation.parse (String.ofList (Text.trim s.toList))).toOption = some i :=
    toOption_eq_some_iff.2 hparse
  show List.findSome? _ (s.toList :: _) = _
  rw [List.findSome?_cons, hfirst]

/-- What a text gives is the trial of a success. -/
theorem success_of_parse {text : String} {mode : Trailing} {iteration : Nat} {t : Trial Float}
    (h : (TextResult.parse text mode iteration).value = .ok t) :
    t.status = .success ∧ t.iteration = iteration := by
  rw [TextResult.value_parse] at h
  split at h
  · cases h
  · obtain ⟨_, -, rfl⟩ := map_eq_ok_iff.1 h
    exact ⟨rfl, rfl⟩

section

variable {d e : Disk} {base : Path} {iteration : Nat} {options : LoadOptions} {mode : Trailing} {t : Trial Float}
  {i : Invocation}

/-- What is read from a file is the trial of its text. -/
theorem value_read_eq_ok_iff : (TextResult.read d base mode iteration).value = .ok t ↔
    ∃ text, d.readText base = .ok text ∧ (TextResult.parse text mode iteration).value = .ok t := by
  rw [TextResult.read]
  cases d.readText base with
  | error cause => simp
  | ok text => simp [mapError_eq_ok_iff]

theorem status_of_read (h : (TextResult.read d base mode iteration).value = .ok t) : t.status = .success := by
  obtain ⟨_, -, hparse⟩ := value_read_eq_ok_iff.1 h
  exact (success_of_parse hparse).1

/-- What can be read is in a file. -/
theorem isFile_of_read (h : (TextResult.read d base mode iteration).value = .ok t) : d.isFile base = true := by
  obtain ⟨_, htext, -⟩ := value_read_eq_ok_iff.1 h
  exact isFile_of_readText htext

/-- What was read from a file that is still there is read again. -/
theorem NoNewFile.read_eq (h : NoNewFile base d e) (hfile : e.isFile base = true) (mode : Trailing) :
    TextResult.read e base mode iteration = TextResult.read d base mode iteration := by
  rw [TextResult.read, h.readText_eq hfile, TextResult.read]

/-- How a run failed, if it did. -/
def judgement (d : Disk) (base : Path) (marker : String) : Failure :=
  (classify d (.text base) marker).getD .generic

/-- **What is read of a run**, the result being looked at first: the trial that it holds, or else a failed trial if the
command line is known. -/
theorem value_loadRun_eq (d : Disk) (base : Path) (iteration : Nat) (options : LoadOptions) :
    (loadRun d base iteration options).value =
      match (TextResult.read d base options.trailing iteration).value with
      | .ok t => some t
      | .error _ => (recordedInvocation? d base).map fun i =>
        .failed i.model i.axis? (judgement d base options.marker) iteration := by
  rw [loadRun, judgement]
  cases hclassify : classify d (.text base) options.marker with
  | none =>
    rw [Noted.value_bind]
    cases (TextResult.read d base options.trailing iteration).value with
    | ok t => rfl
    | error e => exact value_failedTrial d base .generic iteration
  | some failure =>
    cases hread : (TextResult.read d base options.trailing iteration).value with
    | error e => exact value_failedTrial d base failure iteration
    | ok t =>
      -- what can be read is there, and nothing is judged
      have hnone : classify d (.text base) options.marker = none :=
        (classify_eq_none_iff (a := .text base)).2 (isFile_of_read hread)
      rw [hclassify] at hnone
      cases hnone

/-- A trial belongs to an iteration, and if it failed it is about a model. -/
def Trial.IsOf (t : Trial Float) (iteration : Nat) (model : String) : Prop :=
  t.iteration = iteration ∧ (t.status ≠ .success → t.model = model)

/-- **No run is lost** whose command line is known. -/
theorem exists_loadRun (h : recordedInvocation? d base = some i) (iteration : Nat) (options : LoadOptions) :
    ∃ t, (loadRun d base iteration options).value = some t ∧ t.IsOf iteration i.model := by
  rw [value_loadRun_eq]
  cases hread : (TextResult.read d base options.trailing iteration).value with
  | error e =>
    rw [h]
    exact ⟨_, rfl, rfl, fun _ => rfl⟩
  | ok t =>
    obtain ⟨_, -, hparse⟩ := value_read_eq_ok_iff.1 hread
    obtain ⟨hstatus, hiteration⟩ := success_of_parse hparse
    exact ⟨t, rfl, hiteration, fun hfailed => absurd hstatus hfailed⟩

/-- **No run is invented** where no file is. -/
theorem loadRun_eq_none (iteration : Nat) (options : LoadOptions)
    (h : ∀ suffix ∈ ["", setupSuffix], ∀ content executable,
      d.find (base.withSuffix suffix) ≠ .ok (.file content executable)) :
    (loadRun d base iteration options).value = none := by
  have hbase : base.withSuffix "" = base := by rw [withSuffix, String.append_empty]
  have hresult := h "" (by decide)
  rw [hbase] at hresult
  obtain ⟨cause, hsetup⟩ := readText_eq_error (h setupSuffix (by decide))
  obtain ⟨cause', hecho⟩ := readText_eq_error hresult
  have hread : (TextResult.read d base options.trailing iteration).value = .error (.unreadable base cause') := by
    rw [TextResult.read, hecho]
    rfl
  have hrecorded : recordedInvocation? d base = none := by
    rw [recordedInvocation?, invocationLines, hsetup, hecho]
    rfl
  rw [value_loadRun_eq, hread, hrecorded]
  rfl

/-- **A success is read** from a result that is there and can be read, and from nothing else. -/
theorem loadRun_eq_success_iff (hstatus : t.status = .success) :
    (loadRun d base iteration options).value = some t ↔
      d.isFile base = true ∧ (TextResult.read d base options.trailing iteration).value = .ok t := by
  rw [value_loadRun_eq]
  cases hread : (TextResult.read d base options.trailing iteration).value with
  | error e =>
    refine ⟨fun h => ?_, fun h => by cases h.2⟩
    obtain ⟨i, -, rfl⟩ := Option.map_eq_some_iff.1 h
    exact absurd hstatus (Failure.status_ne_success _)
  | ok u => simp [isFile_of_read hread]

/-- **A run without a log** is a failure of an unknown kind, unless its result can be read. -/
theorem loadRun_eq_generic (hrecorded : recordedInvocation? d base = some i)
    (hlog : ∃ cause, d.readBytes (Artifact.text base).log = .error cause)
    (hread : ∀ t, (TextResult.read d base options.trailing iteration).value ≠ .ok t) :
    (loadRun d base iteration options).value = some (.failed i.model i.axis? .generic iteration) := by
  obtain ⟨cause, hlog⟩ := hlog
  have hgeneric : judgement d base options.marker = .generic := by
    rw [judgement, classify, hlog]
    split <;> rfl
  rw [value_loadRun_eq, hrecorded, hgeneric]
  cases hresult : (TextResult.read d base options.trailing iteration).value with
  | ok t => exact absurd hresult (hread t)
  | error e => rfl

end

/-! ## Numbers -/

/-- A file belongs to the run whose number stands before the first point of its name. -/
theorem runNumber?_of_digits {name : String} {digits rest : List Char} (hname : name.toList = digits ++ rest)
    (hdigits : ∀ c ∈ digits, Decimal.isDigit c = true) (hrest : rest = [] ∨ rest.head? = some '.') :
    runNumber? name = Decimal.natural? digits := by
  have hsplit : Text.splitOn '.' digits = [digits] := by
    refine Text.split_eq_singleton fun c hc => ?_
    rw [beq_eq_false_iff_ne]
    rintro rfl
    exact absurd (hdigits _ hc) (by decide)
  rw [runNumber?, hname]
  rcases hrest with rfl | hpoint
  · rw [List.append_nil, hsplit, List.head?_cons, Option.bind_some]
  · obtain ⟨rest, rfl⟩ := List.head?_eq_some_iff.1 hpoint
    rw [Text.splitOn, Text.split_append_cons _ _ (by decide), ← Text.splitOn, hsplit]
    rfl

theorem runNumber?_setup {n : Nat} (h : n ≤ Decimal.wordLimit) :
    runNumber? (n.repr ++ setupSuffix) = some n := by
  rw [runNumber?_of_digits String.toList_append (fun _ => Decimal.isDigit_of_mem_repr) (.inr (by decide))]
  exact Decimal.natural?_repr h

theorem runNumber?_repr {n : Nat} (h : n ≤ Decimal.wordLimit) : runNumber? n.repr = some n := by
  rw [runNumber?_of_digits (List.append_nil _).symm (fun _ => Decimal.isDigit_of_mem_repr) (.inl rfl)]
  exact Decimal.natural?_repr h

/-- **A folder with a number** has the word and the number for its name, which may be written in several ways. -/
theorem iterationNumber?_eq_some_iff {name : String} {i : Nat} : iterationNumber? name = some i ↔
    ∃ digits, name.toList = iterationWord.toList ++ digits ∧ Decimal.Writes i digits ∧ i ≤ Decimal.wordLimit := by
  rw [iterationNumber?, Option.ite_none_right_eq_some, Decimal.natural?_eq_some_iff, List.isPrefixOf_iff_prefix]
  constructor
  · rintro ⟨⟨digits, hname⟩, hdigits⟩
    rw [← hname, ← String.length_toList, List.drop_left] at hdigits
    exact ⟨digits, hname.symm, hdigits⟩
  · rintro ⟨digits, hname, hdigits⟩
    rw [hname, ← String.length_toList, List.drop_left]
    exact ⟨List.prefix_append _ _, hdigits⟩

/-- The folder of an iteration has the number of the iteration. -/
theorem iterationNumber?_iterationName {i : Nat} (h : i ≤ Decimal.wordLimit) :
    iterationNumber? (iterationName i) = some i :=
  iterationNumber?_eq_some_iff.2 ⟨i.repr.toList, String.toList_append, .unsigned 0, h⟩

theorem pairwise_insertNumber (n : Nat) {ns : List Nat} (h : ns.Pairwise (· < ·)) :
    (insertNumber n ns).Pairwise (· < ·) := by
  induction ns with
  | nil => exact List.pairwise_singleton _ n
  | cons m rest ih =>
    rw [List.pairwise_cons] at h
    rw [insertNumber]
    split
    · rename_i hlt
      refine List.pairwise_cons.2 ⟨fun k hk => ?_, List.pairwise_cons.2 h⟩
      rcases List.mem_cons.1 hk with rfl | hk
      · exact hlt
      · exact Nat.lt_trans hlt (h.1 k hk)
    · split
      · exact List.pairwise_cons.2 h
      · refine List.pairwise_cons.2 ⟨fun k hk => ?_, ih h.2⟩
        rcases mem_insertNumber.1 hk with rfl | hk
        · omega
        · exact h.1 k hk

/-- The numbers of runs are increasing. -/
theorem pairwise_distinctNumbers (ns : List Nat) : (distinctNumbers ns).Pairwise (· < ·) := by
  induction ns with
  | nil => exact .nil
  | cons n rest ih => exact pairwise_insertNumber n ih

/-- Increasing numbers are known when it is known which they are. -/
theorem eq_range_of_pairwise {ns : List Nat} (h : ns.Pairwise (· < ·)) {bound : Nat}
    (hmem : ∀ n, n ∈ ns ↔ n < bound) : ns = List.range bound := by
  have hnodup : ns.Nodup := h.imp Nat.ne_of_lt
  have hperm : ns.Perm (List.range bound) := by
    rw [List.perm_ext_iff_of_nodup hnodup List.nodup_range]
    exact fun n => (hmem n).trans List.mem_range.symm
  exact hperm.eq_of_pairwise (fun m n _ _ hmn hnm => absurd hmn (Nat.lt_asymm hnm)) h
    List.pairwise_lt_range

/-! ## One iteration -/

/-- **An iteration is read in the order of its numbers.**  If the runs of the numbers below a bound are there,
and no others, it does not matter what else is in the folder. -/
theorem value_loadIteration {d : Disk} {folder : Path} {iteration : Nat} {options : LoadOptions}
    {es : List (String × Entry)} (hlist : d.list folder = .ok es) {count : Nat}
    (hall : ∀ n, n < count → ∃ e ∈ es, runNumber? e.1 = some n)
    (hnone : ∀ n, count ≤ n → (loadRun d (folder.join n.repr) iteration options).value = none) :
    (loadIteration d folder iteration options).value =
      .ok ((List.range count).filterMap fun n =>
        (loadRun d (folder.join n.repr) iteration options).value) := by
  have hnumbers : runNumbers d folder =
      .ok (distinctNumbers (es.filterMap fun e => runNumber? e.1)) := by
    rw [runNumbers, hlist]
    rfl
  have hfew : (distinctNumbers (es.filterMap fun e => runNumber? e.1)).filter (· < count) =
      List.range count := by
    refine eq_range_of_pairwise ((pairwise_distinctNumbers _).filter _) fun n => ?_
    rw [List.mem_filter, mem_distinctNumbers, List.mem_filterMap, decide_eq_true_iff]
    exact ⟨fun h => h.2, fun h => ⟨hall n h, h⟩⟩
  rw [loadIteration, hnumbers, Noted.value_bind, Noted.value_pure, Noted.value_all, List.map_map,
    List.filterMap_map, ← hfew, List.filterMap_filter]
  refine congrArg Except.ok (List.filterMap_congr fun n _ => ?_)
  by_cases hn : n < count
  · rw [if_pos (by simpa using hn)]
    rfl
  · rw [if_neg (by simpa using hn)]
    exact hnone n (Nat.le_of_not_lt hn)

/-! ## All iterations -/

/-- The folders are numbered, each once and in order, and those of iterations by their names. -/
structure Numbered (names : List String) (numbered : List (Nat × String)) : Prop where
  /-- No folder is lost or invented. -/
  perm : (numbered.map Prod.snd).Perm names
  /-- They are in the order of their numbers. -/
  sorted : numbered.Pairwise fun q r => q.1 ≤ r.1
  /-- A number in a name is the number of the folder. -/
  number : ∀ q ∈ numbered, ∀ i, iterationNumber? q.2 = some i → q.1 = i

theorem numbered_numberFolders (names : List String) : Numbered names (numberFolders names) := by
  have hperm := perm_sortBy (compareOn Prod.fst)
    (names.zipIdx.map fun q => ((iterationNumber? q.1).getD q.2, q.1))
  refine ⟨?_, ?_, fun q hq i hi => ?_⟩
  · refine (hperm.map Prod.snd).trans ?_
    rw [List.map_map]
    have hnames : names.zipIdx.map Prod.fst = names := List.zipIdx_map_fst 0 names
    conv => rhs; rw [← hnames]
    exact .refl _
  · refine (sorted_sortBy _).imp fun {q r} hle => ?_
    exact Nat.le_of_not_lt fun hlt => hle (Nat.compare_eq_lt.2 hlt)
  · obtain ⟨⟨name, place⟩, -, rfl⟩ := List.mem_map.1 (hperm.mem_iff.1 hq)
    have hname : iterationNumber? name = some i := hi
    show (iterationNumber? name).getD place = i
    rw [hname]
    rfl

/-- Doing something for every member of a list is a chain along the list. -/
theorem Noted.value_forEach_eq {ε α β : Type} (f : α → Noted (Except ε β)) (xs : List α) :
    (Noted.forEach f xs).value = xs.mapM fun a => (f a).value := by
  induction xs with
  | nil => rfl
  | cons a rest ih =>
    rw [Noted.forEach, Noted.value_bind, List.mapM_cons]
    cases (f a).value with
    | error e => rfl
    | ok b =>
      rw [bind_ok, ← ih]
      cases hrest : (Noted.forEach f rest).value with
      | error e => simp only [Noted.value_bind, hrest]; rfl
      | ok bs => simp only [Noted.value_bind, hrest]; rfl

theorem Noted.value_forEach {ε α β γ : Type} {f : α → Noted (Except ε β)} {h : γ → α} {g : γ → β}
    {cs : List γ} (hok : ∀ c ∈ cs, (f (h c)).value = .ok (g c)) :
    (Noted.forEach f (cs.map h)).value = .ok (cs.map g) := by
  rw [Noted.value_forEach_eq, mapM_eq_ok_iff, List.map_map, List.map_map]
  exact List.map_congr_left hok

/-- The folders of iterations among the numbered ones. -/
theorem Numbered.filter_eq {names : List String} {numbered : List (Nat × String)}
    (h : Numbered names numbered) (hnodup : names.Nodup) {count : Nat}
    (hword : count ≤ Decimal.wordLimit) (hmem : ∀ i, i < count → iterationName i ∈ names) :
    (numbered.filter fun q => q.1 < count ∧ q.2 = iterationName q.1).map Prod.fst =
      List.range count := by
  have hnames : numbered.Pairwise fun q r => q.2 ≠ r.2 :=
    List.pairwise_map.1 (h.perm.nodup_iff.2 hnodup)
  refine eq_range_of_pairwise ?_ fun n => ?_
  · rw [List.pairwise_map, List.pairwise_filter]
    refine (h.sorted.and hnames).imp fun {q r} ⟨hle, hne⟩ hq hr => ?_
    simp only [decide_eq_true_eq] at hq hr
    refine Nat.lt_of_le_of_ne hle fun heq => hne ?_
    rw [hq.2, hr.2, heq]
  · rw [List.mem_map]
    constructor
    · rintro ⟨q, hq, rfl⟩
      simp only [List.mem_filter, decide_eq_true_eq] at hq
      exact hq.2.1
    · intro hn
      obtain ⟨q, hq, hname⟩ := List.mem_map.1 (h.perm.mem_iff.2 (hmem n hn))
      have hnumber : q.1 = n := h.number q hq n (by
        rw [hname]
        exact iterationNumber?_iterationName (by omega))
      refine ⟨q, List.mem_filter.2 ⟨hq, ?_⟩, hnumber⟩
      rw [decide_eq_true_iff, hnumber]
      exact ⟨hn, hname⟩

/-- The names of the folders in a listing. -/
def subfolders (es : List (String × Entry)) : List String :=
  es.filterMap fun (name, e) => if e = .folder then some name else none

theorem mem_subfolders_iff {es : List (String × Entry)} {name : String} :
    name ∈ subfolders es ↔ (name, Entry.folder) ∈ es := by
  rw [subfolders, List.mem_filterMap]
  constructor
  · rintro ⟨⟨n, e⟩, hmem, he⟩
    obtain ⟨rfl, he⟩ := Option.ite_none_right_eq_some.1 he
    cases he
    exact hmem
  · intro hmem
    exact ⟨(name, .folder), hmem, if_pos rfl⟩

theorem nodup_subfolders {es : List (String × Entry)} (h : (es.map Prod.fst).Nodup) : (subfolders es).Nodup := by
  rw [subfolders, List.Nodup, List.pairwise_filterMap]
  refine (List.pairwise_map.1 h).imp fun {q r} hne x hx y hy => ?_
  obtain ⟨-, hx⟩ := Option.ite_none_right_eq_some.1 hx
  obtain ⟨-, hy⟩ := Option.ite_none_right_eq_some.1 hy
  cases hx
  cases hy
  exact hne

theorem folderNames_eq {d : Disk} {p : Path} {es : List (String × Entry)} (hlist : d.list p = .ok es) :
    folderNames d p = .ok (sortBy compare (subfolders es)) := by
  rw [folderNames, hlist]
  rfl

/-- The names of folders are those of the folders that are listed. -/
theorem exists_folderNames {d : Disk} {p : Path} {es : List (String × Entry)} (hlist : d.list p = .ok es)
    (hnodup : (es.map Prod.fst).Nodup) :
    ∃ names, folderNames d p = .ok names ∧ names.Nodup ∧
      ∀ name, name ∈ names ↔ (name, Entry.folder) ∈ es :=
  ⟨_, folderNames_eq hlist, (perm_sortBy _ _).nodup_iff.2 (nodup_subfolders hnodup), fun _ =>
    mem_sortBy.trans mem_subfolders_iff⟩

/-- The names of folders are different. -/
theorem nodup_folderNames {d : Disk} (hd : d.WellFormed) {p : Path} {names : List String}
    (h : folderNames d p = .ok names) :
    names.Nodup ∧ ∀ name ∈ names, IsName name := by
  obtain ⟨es, hes, -⟩ := map_eq_ok_iff.1 h
  obtain ⟨l, -, -, rfl⟩ := list_eq_ok_iff.1 hes
  obtain ⟨names', hnames', hnodup, hmem⟩ := exists_folderNames hes hd.nodup_children
  rw [h] at hnames'
  cases hnames'
  refine ⟨hnodup, fun name hname => ?_⟩
  have hget := hd.mem_children.1 ((hmem name).1 hname)
  exact hd.names_of_get? hget name (by simp)

/-- What holds nothing can be left out. -/
theorem flatten_map_ite {α β : Type} (p : α → Prop) [DecidablePred p] (f : α → List β) (xs : List α) :
    (xs.map fun x => if p x then f x else []).flatten = (xs.filter fun x => p x).flatMap f := by
  induction xs with
  | nil => rfl
  | cons x rest ih =>
    rw [List.map_cons, List.flatten_cons, ih]
    by_cases hx : p x
    · rw [if_pos hx, List.filter_cons_of_pos (by simpa using hx), List.flatMap_cons]
    · rw [if_neg hx, List.filter_cons_of_neg (by simpa using hx), List.nil_append]

/-- **Results are read in the order of iterations.**  If the folders of the iterations below a bound are
there, it does not matter what else is in the folder, as long as no runs are read from it. -/
theorem value_loadResults {d : Disk} {root : Path} {options : LoadOptions}
    {es : List (String × Entry)} (hlist : d.list root = .ok es) (hnodup : (es.map Prod.fst).Nodup)
    {count : Nat} (hword : count ≤ Decimal.wordLimit) {f : Nat → List (Trial Float)}
    (hmem : ∀ i, i < count → (iterationName i, Entry.folder) ∈ es)
    (hload : ∀ i, i < count → (loadIteration d (iterationFolder root i) i options).value = .ok (f i))
    (hother : ∀ name, (name, Entry.folder) ∈ es → (∀ i, i < count → name ≠ iterationName i) →
      ∀ number, (loadIteration d (root.join name) number options).value = .ok []) :
    (loadResults d root options).value = .ok ((List.range count).flatMap f) := by
  obtain ⟨names, hok, hnames, hfolder⟩ := exists_folderNames hlist hnodup
  have hfolders : iterationFolders d root =
      .ok ((numberFolders names).map fun q => (q.1, root.join q.2)) := by
    rw [iterationFolders, hok]
    rfl
  have hnumbered := numbered_numberFolders names
  have hone : ∀ q ∈ numberFolders names, (loadIteration d (root.join q.2) q.1 options).value =
      .ok (if q.1 < count ∧ q.2 = iterationName q.1 then f q.1 else []) := by
    intro q hq
    have hin : (q.2, Entry.folder) ∈ es :=
      (hfolder q.2).1 (hnumbered.perm.mem_iff.1 (List.mem_map_of_mem hq))
    by_cases hiteration : q.1 < count ∧ q.2 = iterationName q.1
    · rw [if_pos hiteration, hiteration.2]
      exact hload q.1 hiteration.1
    · rw [if_neg hiteration]
      refine hother q.2 hin (fun i hi hname => hiteration ?_) q.1
      have hnumber := hnumbered.number q hq i (by
        rw [hname]
        exact iterationNumber?_iterationName (by omega))
      rw [hnumber]
      exact ⟨hi, hname⟩
  have hfilter := hnumbered.filter_eq hnames hword fun i hi => (hfolder _).2 (hmem i hi)
  have hloaded := @Noted.value_forEach _ _ _ _
    (fun (q : Nat × Path) => loadIteration d q.2 q.1 options)
    (fun q : Nat × String => (q.1, root.join q.2)) _ _ hone
  rw [loadResults, hfolders, Noted.value_bind, hloaded, ← hfilter, List.flatMap_map]
  exact congrArg Except.ok (flatten_map_ite _ (fun q : Nat × String => f q.1) _)

end CheckerTrials
