import CheckerTrials.Json.Decode
import CheckerTrials.Proofs.Json.Decoding
import CheckerTrials.Proofs.Json.Numbers
import CheckerTrials.Proofs.Json.Reading

/-!
# The library that rounds once

The library that programs run with does what the documentation of a library says (`documented`).  It rounds every
literal once, so that every finite quantity reads back as it was (`readsBack`).

What it reads a second time has to be kept whole first.  Written values can be: their numbers are counts and finite
quantities (`isSound_of_written`), and they are nested no deeper than is said of them (`depth_le_of_written`).
-/

set_option autoImplicit false

namespace CheckerTrials.Json.Value

open Library (ofElements)

variable {depth : Nat} {v : Value}

/-! ## Numbers and nesting -/

/-- What holds of the text of every finite double and of every count. -/
structure HoldsOfNumbers (p : String → Bool) : Prop where
  /-- It holds of counts. -/
  count : ∀ n ≤ Decimal.wordLimit, p n.repr = true
  /-- It holds of quantities. -/
  quantity : ∀ x, Decimal.isFinite x = true → p (String.ofList (Decimal.written .document x)) = true

theorem holdsOfNumbers_finite? : HoldsOfNumbers fun literal => (finite? literal).isSome where
  count _ h := isSome_finite?_repr h
  quantity x h := by rw [finite?_written .document h]; rfl

theorem holdsOfNumbers_isLiteral : HoldsOfNumbers isLiteral where
  count n _ := isNumber_repr n
  quantity x h := by
    rw [isLiteral, String.toList_ofList]
    exact isNumber_written .document h

theorem ofFloat_eq {x : Float} (h : Decimal.isFinite x = true) :
    ofFloat x = .number (String.ofList (Decimal.written .document x)) := by
  rw [ofFloat, if_pos h]

theorem isSound_array {p : String → Bool} {vs : List Value} (h : ∀ v ∈ vs, v.isSound p = true) :
    (array vs).isSound p = true := by
  rw [isSound]
  induction vs with
  | nil => rfl
  | cons v rest ih =>
    rw [allSound, h v List.mem_cons_self, ih fun w hw => h w (List.mem_cons_of_mem v hw)]
    rfl

theorem isSound_ofMembers {p : String → Bool} {ms : List (String × Value)} (h : ∀ m ∈ ms, m.2.isSound p = true) :
    (ofMembers ms).isSound p = true := by
  rw [ofMembers, isSound]
  induction ms with
  | nil => rfl
  | cons m rest ih =>
    rw [List.map_cons, membersSound, h m List.mem_cons_self, ih fun q hq => h q (List.mem_cons_of_mem m hq)]
    rfl

theorem isSound_of_written {p : String → Bool} (hp : HoldsOfNumbers p) (h : Written depth v) :
    v.isSound p = true := by
  induction h with
  | string _ s => rfl
  | count _ hn => exact hp.count _ hn
  | float _ hx =>
    show (ofFloat _).isSound p = true
    rw [ofFloat_eq hx]
    exact hp.quantity _ hx
  | elements _ ih => exact isSound_array ih
  | members _ ih => exact isSound_ofMembers ih

theorem depth_array_le {vs : List Value} {n : Nat} (h : ∀ v ∈ vs, v.depth ≤ n) : (array vs).depth ≤ n + 1 := by
  rw [Value.depth]
  refine Nat.succ_le_succ ?_
  induction vs with
  | nil => exact Nat.zero_le n
  | cons v rest ih =>
    rw [depthOfAll]
    exact Nat.max_le.2 ⟨h v List.mem_cons_self, ih fun w hw => h w (List.mem_cons_of_mem v hw)⟩

theorem depth_ofMembers_le {ms : List (String × Value)} {n : Nat} (h : ∀ m ∈ ms, m.2.depth ≤ n) :
    (ofMembers ms).depth ≤ n + 1 := by
  rw [ofMembers, Value.depth]
  refine Nat.succ_le_succ ?_
  induction ms with
  | nil => exact Nat.zero_le n
  | cons m rest ih =>
    rw [List.map_cons, depthOfMembers]
    exact Nat.max_le.2 ⟨h m List.mem_cons_self, ih fun q hq => h q (List.mem_cons_of_mem m hq)⟩

theorem depth_le_of_written (h : Written depth v) : v.depth ≤ depth := by
  induction h with
  | string depth s => exact Nat.zero_le depth
  | count depth _ => exact Nat.zero_le depth
  | float depth hx =>
    show (ofFloat _).depth ≤ depth
    rw [ofFloat_eq hx]
    exact Nat.zero_le depth
  | elements _ ih => exact depth_array_le ih
  | members _ ih => exact depth_ofMembers_le ih

/-- **Written values can be kept whole**, if they do not stand too deep. -/
theorem canBeKept_of_written {outside : Nat} (h : Written depth v) (houtside : outside + depth ≤ depthLimit) :
    v.canBeKept outside = true := by
  rw [canBeKept, isSound_of_written holdsOfNumbers_finite? h, Bool.true_and, decide_eq_true_iff]
  exact (Nat.add_le_add_left (depth_le_of_written h) outside).trans houtside

/-! ## Records -/

/-- Of members with names of their own, the one with a name is found. -/
theorem valuesOf_eq_lookup {ms : List (String × Value)} (h : (ms.map Prod.fst).Nodup) (name : String) :
    valuesOf (ms.map fun m => (some m.1, m.2)) name = (ms.lookup name).toList := by
  induction ms with
  | nil => rfl
  | cons m rest ih =>
    obtain ⟨key, v⟩ := m
    rw [List.map_cons, List.nodup_cons] at h
    have hrest := ih h.2
    rw [valuesOf] at hrest ⊢
    rw [List.map_cons, List.lookup_cons]
    by_cases hname : name = key
    · subst hname
      have hnone : rest.lookup name = none := by
        rw [List.lookup_eq_none_iff]
        intro m hm
        rw [bne_iff_ne]
        exact fun heq => h.1 (List.mem_map.2 ⟨m, hm, heq.symm⟩)
      rw [hnone] at hrest
      rw [List.filter_cons_of_pos (by simp), List.map_cons, hrest, beq_self_eq_true]
      rfl
    · rw [List.filter_cons_of_neg (by simpa using Ne.symm hname), hrest, beq_eq_false_iff_ne.2 hname]

theorem fields?_ofMembers (fields : List (String × Presence)) {ms : List (String × Value)}
    (h : (ms.map Prod.fst).Nodup) : fields? fields (ofMembers ms) = fields.mapM (fieldOf ms) := by
  have hnames : ((ms.map fun m => ((some m.1 : Text), m.2)).any fun p => p.1.isNone) = false := by
    simp
  rw [ofMembers, fields?, if_neg (by rw [hnames]; decide)]
  congr 1
  funext ⟨name, presence⟩
  simp only [valuesOf_eq_lookup h, fieldOf]
  cases ms.lookup name with
  | none => cases presence <;> rfl
  | some v => rfl

theorem eq_of_tag?_ofMembers {ms : List (String × Value)} {tag : String} (h : (ofMembers ms).tag? = some tag) :
    ms = [(tag, .null)] := by
  unfold ofMembers tag? at h
  split at h
  · rename_i heq
    cases heq
  · rename_i name heq
    obtain ⟨m, rfl, hm⟩ := List.map_eq_singleton_iff.1 (Value.object.inj heq)
    cases m
    cases hm
    cases h
    rfl
  · cases h

/-! ## The library -/

theorem readsBack : ReadsBack Value := by
  intro x hx
  show (ofFloat x).float? = some x
  rw [ofFloat_eq hx]
  exact finite?_written .document hx

/-- **The library does what its documentation says.** -/
theorem documented : Documented Value where
  read?_text {_ v} h _ := by
    show Json.read? (String.ofList v.text).toList = some v
    rw [String.toList_ofList]
    exact read?_text (isSound_of_written holdsOfNumbers_isLiteral h)
  ne_null {_ v} h := by
    cases h with
    | float _ hx =>
      show ofFloat _ ≠ .null
      rw [ofFloat_eq hx]
      exact Value.noConfusion
    | _ => exact Value.noConfusion
  string?_ofString _ := rfl
  count?_ofCount hn := Decimal.natural?_repr hn
  optional_of_ne_null read v h := by
    cases v with
    | null => exact absurd rfl h
    | _ => rfl
  list_ofElements _ _ := rfl
  map_ofMembers read ms := by
    show Option.map OrderedMap.ofList ((ms.map fun m => ((some m.1 : Text), m.2)).mapM _) = _
    rw [List.mapM_map]
    rfl
  fields?_ofMembers := fields?_ofMembers
  tag?_ofString _ := rfl
  eq_of_tag?_ofMembers := eq_of_tag?_ofMembers
  firstOf_eq readers v h houtside := by
    show firstOf _ readers v = _
    rw [firstOf, if_pos (canBeKept_of_written h houtside)]

end CheckerTrials.Json.Value
