/-!
# Maps in key order

An `OrderedMap` holds one value for each of its keys, in increasing order of the keys.  The order is
part of the type, so that two maps with the same values are the same map, and writing a map needs no
sorting.

* `get?_insert_self`, `get?_insert_of_ne`: inserting changes the value of one key.
* `ofKeys`: the map of a function on the keys of a list, each of them once.
-/

set_option autoImplicit false

namespace CheckerTrials

/-- Values for keys, in increasing order of the keys. -/
structure OrderedMap (κ β : Type) [Ord κ] where
  /-- The keys with their values. -/
  entries : List (κ × β)
  /-- The keys increase. -/
  increasing : entries.Pairwise fun p q => compare p.1 q.1 = .lt
  deriving DecidableEq

namespace OrderedMap

variable {κ β γ : Type} [Ord κ]

/-- The map without keys. -/
def empty : OrderedMap κ β := ⟨[], .nil⟩

instance : EmptyCollection (OrderedMap κ β) := ⟨empty⟩

instance : Inhabited (OrderedMap κ β) := ⟨empty⟩

/-- The keys of a map, in increasing order. -/
def keys (m : OrderedMap κ β) : List κ := m.entries.map (·.1)

/-- The values of a map, in the order of their keys. -/
def values (m : OrderedMap κ β) : List β := m.entries.map (·.2)

/-- The number of keys. -/
def size (m : OrderedMap κ β) : Nat := m.entries.length

/-- The value of a key in a list of entries. -/
def find? (k : κ) : List (κ × β) → Option β
  | [] => none
  | (l, v) :: rest => if compare k l = .eq then some v else find? k rest

/-- The value of a key. -/
def get? (m : OrderedMap κ β) (k : κ) : Option β := find? k m.entries

/-- Puts a value into a list of entries, at the place of its key. -/
def insertEntry (k : κ) (v : β) : List (κ × β) → List (κ × β)
  | [] => [(k, v)]
  | (l, w) :: rest =>
    match compare k l with
    | .lt => (k, v) :: (l, w) :: rest
    | .eq => (k, v) :: rest
    | .gt => (l, w) :: insertEntry k v rest

theorem mem_insertEntry {k : κ} {v : β} {es : List (κ × β)} {p : κ × β}
    (h : p ∈ insertEntry k v es) : p = (k, v) ∨ p ∈ es := by
  induction es with
  | nil => simpa [insertEntry] using h
  | cons q rest ih =>
    obtain ⟨l, w⟩ := q
    rw [insertEntry] at h
    split at h
    · simpa using h
    · rcases List.mem_cons.1 h with h | h
      · exact .inl h
      · exact .inr (List.mem_cons_of_mem _ h)
    · rcases List.mem_cons.1 h with h | h
      · exact .inr (h ▸ List.mem_cons_self)
      · exact (ih h).imp_right (List.mem_cons_of_mem _)

theorem increasing_insertEntry [Std.TransOrd κ] (k : κ) (v : β) {es : List (κ × β)}
    (h : es.Pairwise fun p q => compare p.1 q.1 = .lt) :
    (insertEntry k v es).Pairwise fun p q => compare p.1 q.1 = .lt := by
  induction es with
  | nil => simp [insertEntry]
  | cons q rest ih =>
    obtain ⟨l, w⟩ := q
    rw [List.pairwise_cons] at h
    rw [insertEntry]
    split
    · rename_i hk
      refine List.pairwise_cons.2 ⟨fun p hp => ?_, List.pairwise_cons.2 h⟩
      rcases List.mem_cons.1 hp with rfl | hp
      · exact hk
      · exact Std.TransCmp.lt_trans hk (h.1 p hp)
    · rename_i hk
      exact List.pairwise_cons.2
        ⟨fun p hp => Std.TransCmp.lt_of_eq_of_lt hk (h.1 p hp), h.2⟩
    · rename_i hk
      refine List.pairwise_cons.2 ⟨fun p hp => ?_, ih h.2⟩
      rcases mem_insertEntry hp with rfl | hp
      · exact Std.OrientedCmp.lt_of_gt hk
      · exact h.1 p hp

/-- The map with the value `v` for the key `k`. -/
def insert [Std.TransOrd κ] (m : OrderedMap κ β) (k : κ) (v : β) : OrderedMap κ β :=
  ⟨insertEntry k v m.entries, increasing_insertEntry k v m.increasing⟩

/-- The map of a list of entries; of several values for a key the last one counts. -/
def ofList [Std.TransOrd κ] (es : List (κ × β)) : OrderedMap κ β :=
  es.foldl (fun m p => m.insert p.1 p.2) empty

theorem mem_of_mem_foldl_insert [Std.TransOrd κ] {es : List (κ × β)} {m : OrderedMap κ β} {p : κ × β}
    (h : p ∈ (es.foldl (fun m q => m.insert q.1 q.2) m).entries) : p ∈ m.entries ∨ p ∈ es := by
  induction es generalizing m with
  | nil => exact .inl h
  | cons q rest ih =>
    rcases ih h with h | h
    · exact (mem_insertEntry h).elim (fun heq => .inr (heq ▸ List.mem_cons_self)) .inl
    · exact .inr (List.mem_cons_of_mem _ h)

/-- The map of a list has no other entries. -/
theorem mem_of_mem_ofList [Std.TransOrd κ] {es : List (κ × β)} {p : κ × β} (h : p ∈ (ofList es).entries) : p ∈ es :=
  (mem_of_mem_foldl_insert h).elim nofun id

/-- The map with every value changed by `f`, which may depend on the key. -/
def mapValues (f : κ → β → γ) (m : OrderedMap κ β) : OrderedMap κ γ :=
  ⟨m.entries.map fun p => (p.1, f p.1 p.2), by
    rw [List.pairwise_map]
    exact m.increasing⟩

/-- The map with the values that `f` gives, without the keys for which it gives none. -/
def filterMapValues (f : κ → β → Option γ) (m : OrderedMap κ β) : OrderedMap κ γ :=
  ⟨m.entries.filterMap fun p => (f p.1 p.2).map fun v => (p.1, v), by
    rw [List.pairwise_filterMap]
    refine m.increasing.imp fun {p q} h p' hp q' hq => ?_
    obtain ⟨v, -, rfl⟩ := Option.map_eq_some_iff.1 hp
    obtain ⟨w, -, rfl⟩ := Option.map_eq_some_iff.1 hq
    exact h⟩

/-- The map of the function `f` on the keys of a list, each of them once. -/
def ofKeys [Std.TransOrd κ] (f : κ → β) (ks : List κ) : OrderedMap κ β :=
  ks.foldr (fun k m => m.insert k (f k)) empty

/-! ## Looking up -/

@[simp] theorem get?_empty (k : κ) : (empty : OrderedMap κ β).get? k = none := rfl

theorem find?_insertEntry_self [Std.TransOrd κ] (k : κ) (v : β) (es : List (κ × β)) :
    find? k (insertEntry k v es) = some v := by
  induction es with
  | nil => simp [insertEntry, find?, Std.ReflCmp.compare_self]
  | cons q rest ih =>
    obtain ⟨l, w⟩ := q
    rw [insertEntry]
    split
    · simp [find?, Std.ReflCmp.compare_self]
    · simp [find?, Std.ReflCmp.compare_self]
    · rename_i hk
      simp [find?, hk, ih]

theorem find?_insertEntry_of_ne [Std.TransOrd κ] {k l : κ} (h : compare l k ≠ .eq) (v : β)
    (es : List (κ × β)) : find? l (insertEntry k v es) = find? l es := by
  induction es with
  | nil => simp [insertEntry, find?, h]
  | cons q rest ih =>
    obtain ⟨m, w⟩ := q
    rw [insertEntry]
    split
    · simp [find?, h]
    · rename_i hk
      have hm : compare l m ≠ .eq := fun e =>
        h (Std.TransCmp.eq_trans e (Std.OrientedCmp.eq_symm hk))
      simp [find?, h, hm]
    · simp only [find?, ih]

/-- Inserting gives a key its value. -/
theorem get?_insert_self [Std.TransOrd κ] (m : OrderedMap κ β) (k : κ) (v : β) :
    (m.insert k v).get? k = some v :=
  find?_insertEntry_self k v m.entries

/-- Inserting leaves every other key as it is. -/
theorem get?_insert_of_ne [Std.TransOrd κ] (m : OrderedMap κ β) {k l : κ} (h : compare l k ≠ .eq)
    (v : β) : (m.insert k v).get? l = m.get? l :=
  find?_insertEntry_of_ne h v m.entries

end OrderedMap

/-- Values for names, in increasing order of the names. -/
abbrev NameMap (β : Type) := OrderedMap String β

end CheckerTrials
