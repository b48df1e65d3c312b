import CheckerTrials.Ordered.Map
import Mathlib.Data.List.Induction
import Mathlib.Data.List.Sort

/-!
# The keys of an ordered map

`OrderedMap.insert` and `OrderedMap.ofKeys` are described entry by entry in `Ordered/Map`.  Here they are
described as a whole: `mem_entries_ofKeys` says which entries the map of a function on a list of keys has,
and `nodup_keys` that no key has two of them.  Together they are what it takes to sum over the keys of a
map.  What is found in the map of a list is said by `get?_ofList`, and a map is the map of its entries
(`ofList_entries`), so that two maps in which the same is found are equal (`ext_get?`).
-/

set_option autoImplicit false

namespace CheckerTrials
namespace OrderedMap

variable {κ β : Type} [Ord κ]

/-- No key comes twice. -/
theorem nodup_keys [Std.ReflOrd κ] (m : OrderedMap κ β) : m.keys.Nodup := by
  refine List.pairwise_map.2 (m.increasing.imp fun {p q} h hpq => ?_)
  have hq : compare q.1 q.1 = .lt := hpq ▸ h
  exact absurd (hq.symm.trans Std.ReflCmp.compare_self) nofun

/-- A list of entries above a key has no entry for it. -/
theorem ne_of_above [Std.ReflOrd κ] {k : κ} {es : List (κ × β)}
    (h : ∀ p ∈ es, compare k p.1 = .lt) {p : κ × β} (hp : p ∈ es) : p.1 ≠ k := by
  intro he
  have hk : compare k k = .lt := by simpa only [he] using h p hp
  exact absurd (hk.symm.trans Std.ReflCmp.compare_self) nofun

/-- In a map that is not there no key has a value. -/
theorem get?_getD_empty (m : Option (OrderedMap κ β)) (k : κ) : (m.getD ∅).get? k = m.bind (·.get? k) := by
  cases m <;> rfl

theorem find?_append (es fs : List (κ × β)) (k : κ) : find? k (es ++ fs) = (find? k es).or (find? k fs) := by
  induction es with
  | nil => rfl
  | cons p rest ih =>
    obtain ⟨l, v⟩ := p
    rw [List.cons_append, find?, find?, ih]
    split <;> rfl

/-! ## Looking up -/

section

variable [Std.LawfulEqOrd κ]

theorem find?_eq_none {es : List (κ × β)} {k : κ} (h : k ∉ es.map Prod.fst) :
    find? k es = none := by
  induction es with
  | nil => rfl
  | cons p rest ih =>
    obtain ⟨l, v⟩ := p
    rw [List.map_cons, List.mem_cons, not_or] at h
    rw [find?, if_neg fun heq => h.1 (Std.LawfulEqCmp.eq_of_compare heq), ih h.2]

theorem mem_of_find?_eq_some {es : List (κ × β)} {k : κ} {v : β}
    (h : find? k es = some v) : (k, v) ∈ es := by
  induction es with
  | nil => cases h
  | cons p rest ih =>
    obtain ⟨l, w⟩ := p
    rw [find?] at h
    split at h
    · rename_i hk
      cases h
      rw [Std.LawfulEqCmp.eq_of_compare hk]
      exact List.mem_cons_self
    · exact List.mem_cons_of_mem _ (ih h)

/-- **What is found under a key** is its entry. -/
theorem get?_eq_some_iff {m : OrderedMap κ β} {k : κ} {v : β} : m.get? k = some v ↔ (k, v) ∈ m.entries := by
  refine ⟨mem_of_find?_eq_some, fun hentry => ?_⟩
  obtain ⟨before, after, hsplit⟩ := List.append_of_mem hentry
  have hincreasing := m.increasing
  rw [hsplit, List.pairwise_append] at hincreasing
  have hbefore : find? k before = none := by
    refine find?_eq_none fun hmem => ?_
    obtain ⟨p, hp, rfl⟩ := List.mem_map.1 hmem
    have hlt := hincreasing.2.2 p hp (p.1, v) List.mem_cons_self
    exact absurd (hlt.symm.trans Std.ReflCmp.compare_self) (by decide)
  rw [get?, hsplit, find?_append, hbefore, Option.none_or, find?, if_pos Std.ReflCmp.compare_self]

theorem mem_values_of_get? {m : OrderedMap κ β} {k : κ} {v : β} (h : m.get? k = some v) : v ∈ m.values :=
  List.mem_map_of_mem (get?_eq_some_iff.1 h)

theorem get?_eq_none_iff {m : OrderedMap κ β} {k : κ} : m.get? k = none ↔ k ∉ m.keys := by
  refine ⟨fun hnone hk => ?_, find?_eq_none⟩
  obtain ⟨⟨l, v⟩, hentry, rfl⟩ := List.mem_map.1 hk
  rw [get?_eq_some_iff.2 hentry] at hnone
  cases hnone

theorem get?_mapValues {γ : Type} (f : κ → β → γ) (m : OrderedMap κ β) (k : κ) :
    (m.mapValues f).get? k = (m.get? k).map (f k) := by
  cases hm : m.get? k with
  | none =>
    have hkeys : (m.mapValues f).keys = m.keys := by simp [keys, mapValues]
    exact get?_eq_none_iff.2 (hkeys ▸ get?_eq_none_iff.1 hm)
  | some v => exact get?_eq_some_iff.2 (List.mem_map.2 ⟨(k, v), get?_eq_some_iff.1 hm, rfl⟩)

theorem get?_filterMapValues {γ : Type} (f : κ → β → Option γ) (m : OrderedMap κ β) (k : κ) :
    (m.filterMapValues f).get? k = (m.get? k).bind (f k) := by
  refine Option.ext fun w => ?_
  rw [Option.bind_eq_some_iff]
  simp only [get?_eq_some_iff]
  rw [filterMapValues, List.mem_filterMap]
  constructor
  · rintro ⟨⟨l, v⟩, hentry, h⟩
    obtain ⟨_, hv, heq⟩ := Option.map_eq_some_iff.1 h
    cases heq
    exact ⟨v, hentry, hv⟩
  · rintro ⟨v, hentry, hv⟩
    exact ⟨(k, v), hentry, by rw [hv, Option.map_some]⟩

/-- The map with those of its entries that have a property. -/
def filter (p : κ → β → Bool) (m : OrderedMap κ β) : OrderedMap κ β :=
  m.filterMapValues fun k v => if p k v then some v else none

theorem get?_filter (p : κ → β → Bool) (m : OrderedMap κ β) (k : κ) :
    (m.filter p).get? k = (m.get? k).filter (p k) := by
  rw [filter, get?_filterMapValues]
  cases m.get? k with
  | none => rfl
  | some v => rfl

omit [Std.LawfulEqOrd κ] in
theorem entries_filter (p : κ → β → Bool) (m : OrderedMap κ β) :
    (m.filter p).entries = m.entries.filter fun e => p e.1 e.2 := by
  rw [← List.filterMap_eq_filter]
  refine List.filterMap_congr fun e _ => ?_
  dsimp only [Option.guard]
  split <;> rfl

end

/-! ## Maps of lists -/

theorem ofList_append_singleton [Std.TransOrd κ] (es : List (κ × β)) (p : κ × β) :
    ofList (es ++ [p]) = (ofList es).insert p.1 p.2 := by
  rw [ofList, List.foldl_append]
  rfl

/-- Above all keys there is no entry to pass. -/
theorem insertEntry_of_above {k : κ} {v : β} {es : List (κ × β)} (h : ∀ p ∈ es, compare k p.1 = .gt) :
    insertEntry k v es = es ++ [(k, v)] := by
  induction es with
  | nil => rfl
  | cons p rest ih =>
    obtain ⟨l, w⟩ := p
    rw [insertEntry, h (l, w) List.mem_cons_self, ih fun q hq => h q (List.mem_cons_of_mem _ hq)]
    rfl

theorem entries_ofList [Std.TransOrd κ] {es : List (κ × β)}
    (h : es.Pairwise fun p q => compare p.1 q.1 = .lt) :
    (ofList es).entries = es := by
  induction es using List.reverseRecOn with
  | nil => rfl
  | append_singleton es p ih =>
    rw [List.pairwise_append] at h
    rw [ofList_append_singleton]
    show insertEntry p.1 p.2 (ofList es).entries = es ++ [p]
    rw [ih h.1]
    refine insertEntry_of_above fun q hq => Std.OrientedCmp.gt_of_lt ?_
    exact h.2.2 q hq p (List.mem_singleton_self p)

/-- **A map is the map of its entries.** -/
theorem ofList_entries [Std.TransOrd κ] (m : OrderedMap κ β) : ofList m.entries = m := by
  obtain ⟨es, h⟩ := m
  have hentries := entries_ofList h
  generalize ofList es = n at hentries
  obtain ⟨fs, hfs⟩ := n
  cases hentries
  rfl

variable [Std.TransOrd κ] [Std.LawfulEqOrd κ]

/-- Inserting replaces the entry of the key and keeps all others. -/
theorem mem_insertEntry_iff {k : κ} {v : β} {es : List (κ × β)}
    (h : es.Pairwise fun p q => compare p.1 q.1 = .lt) {p : κ × β} :
    p ∈ insertEntry k v es ↔ p = (k, v) ∨ p.1 ≠ k ∧ p ∈ es := by
  induction es with
  | nil => simp [insertEntry]
  | cons q rest ih =>
    obtain ⟨l, w⟩ := q
    rw [List.pairwise_cons] at h
    rw [insertEntry]
    split
    · rename_i hk
      -- the key is below everything, so that leaving out its entries leaves out nothing
      have habove : ∀ q ∈ (l, w) :: rest, compare k q.1 = .lt := by
        intro q hq
        rcases List.mem_cons.1 hq with rfl | hq
        · exact hk
        · exact Std.TransCmp.lt_trans hk (h.1 q hq)
      rw [List.mem_cons]
      exact or_congr_right ⟨fun hp => ⟨ne_of_above habove hp, hp⟩, fun hp => hp.2⟩
    · rename_i hk
      have hkl : k = l := Std.LawfulEqCmp.eq_of_compare hk
      subst hkl
      rw [List.mem_cons, List.mem_cons]
      exact or_congr_right ⟨fun hp => ⟨ne_of_above h.1 hp, .inr hp⟩,
        fun hp => hp.2.resolve_left fun he => hp.1 (congrArg Prod.fst he)⟩
    · rename_i hk
      have hne : l ≠ k := by
        rintro rfl
        exact absurd (hk.symm.trans Std.ReflCmp.compare_self) (by decide)
      rw [List.mem_cons, List.mem_cons, ih h.2]
      constructor
      · rintro (rfl | rfl | ⟨hp, hm⟩)
        · exact .inr ⟨hne, .inl rfl⟩
        · exact .inl rfl
        · exact .inr ⟨hp, .inr hm⟩
      · rintro (rfl | ⟨hp, rfl | hm⟩)
        · exact .inr (.inl rfl)
        · exact .inl rfl
        · exact .inr (.inr ⟨hp, hm⟩)

/-- **The entries of a function on keys** are the keys with their values. -/
theorem mem_entries_ofKeys {f : κ → β} {ks : List κ} {p : κ × β} :
    p ∈ (ofKeys f ks).entries ↔ p.1 ∈ ks ∧ p.2 = f p.1 := by
  induction ks with
  | nil => simp [ofKeys, empty]
  | cons k rest ih =>
    have hstep : p ∈ (ofKeys f (k :: rest)).entries ↔
        p = (k, f k) ∨ p.1 ≠ k ∧ p ∈ (ofKeys f rest).entries :=
      mem_insertEntry_iff (ofKeys f rest).increasing
    rw [hstep, ih, List.mem_cons]
    obtain ⟨l, v⟩ := p
    constructor
    · rintro (h | ⟨hne, hl, hv⟩)
      · cases h
        exact ⟨.inl rfl, rfl⟩
      · exact ⟨.inr hl, hv⟩
    · rintro ⟨hl, hv⟩
      by_cases hlk : l = k
      · subst hlk
        exact .inl (by rw [show v = f l from hv])
      · exact .inr ⟨hlk, hl.resolve_left hlk, hv⟩

theorem mem_keys_ofKeys {f : κ → β} {ks : List κ} {k : κ} : k ∈ (ofKeys f ks).keys ↔ k ∈ ks := by
  constructor
  · intro h
    obtain ⟨p, hp, rfl⟩ := List.mem_map.1 h
    exact (mem_entries_ofKeys.1 hp).1
  · intro h
    exact List.mem_map.2 ⟨(k, f k), mem_entries_ofKeys.2 ⟨h, rfl⟩, rfl⟩

/-! ## Looking up in maps of functions and lists -/

/-- **A map is given by its entries**, as their order is that of the keys. -/
theorem eq_of_mem_entries_iff {m n : OrderedMap κ β} (h : ∀ p, p ∈ m.entries ↔ p ∈ n.entries) : m = n := by
  let below (p q : κ × β) : Prop := compare p.1 q.1 = .lt
  have hirrefl : Std.Irrefl below :=
    ⟨fun p hp => absurd (hp.symm.trans Std.ReflCmp.compare_self) (by decide)⟩
  have hantisymm : Std.Antisymm below :=
    ⟨fun p q hpq hqp => absurd (hqp.symm.trans (Std.OrientedCmp.gt_of_lt hpq)) (by decide)⟩
  have hentries : m.entries = n.entries := List.Pairwise.eq_of_mem_iff m.increasing n.increasing h
  rw [← ofList_entries m, hentries, ofList_entries]

/-- **A map is given by what is found in it.** -/
theorem ext_get? {m n : OrderedMap κ β} (h : ∀ k, m.get? k = n.get? k) : m = n :=
  eq_of_mem_entries_iff fun (k, v) => by rw [← get?_eq_some_iff, h k, get?_eq_some_iff]

theorem get?_ofKeys [DecidableEq κ] (f : κ → β) (ks : List κ) (k : κ) :
    (ofKeys f ks).get? k = if k ∈ ks then some (f k) else none := by
  split
  · rename_i hk
    exact get?_eq_some_iff.2 (mem_entries_ofKeys.2 ⟨hk, rfl⟩)
  · rename_i hk
    exact get?_eq_none_iff.2 (mt mem_keys_ofKeys.1 hk)

theorem get?_insert [DecidableEq κ] (m : OrderedMap κ β) (k l : κ) (v : β) :
    (m.insert k v).get? l = if l = k then some v else m.get? l := by
  split
  · rename_i hl
    rw [hl, get?_insert_self]
  · rename_i hl
    exact get?_insert_of_ne m (fun heq => hl (Std.LawfulEqCmp.eq_of_compare heq)) v

/-- **In the map of a list** a key has the last of its values. -/
theorem get?_ofList (es : List (κ × β)) (k : κ) : (ofList es).get? k = find? k es.reverse := by
  induction es using List.reverseRecOn with
  | nil => rfl
  | append_singleton es p ih =>
    rw [ofList_append_singleton, List.reverse_append, List.reverse_singleton, List.singleton_append, find?, ← ih]
    split
    · rename_i hk
      rw [Std.LawfulEqCmp.eq_of_compare hk, get?_insert_self]
    · rename_i hk
      exact get?_insert_of_ne _ hk p.2

/-- The value of an entry counts for its key only, and where no later entry has that key. -/
theorem get?_ofList_middle [DecidableEq κ] (before after : List (κ × β)) (k l : κ) (v : β) :
    (ofList (before ++ (k, v) :: after)).get? l =
      (find? l after.reverse).or (if l = k then some v else find? l before.reverse) := by
  rw [get?_ofList, List.reverse_append, List.reverse_cons, List.append_assoc, find?_append,
    List.singleton_append, find?]
  simp only [Std.LawfulEqOrd.compare_eq_iff_eq]

/-- The last value of a key is the one that is found. -/
theorem get?_ofList_of_not_mem {k : κ} {after : List (κ × β)} (h : k ∉ after.map Prod.fst) (before : List (κ × β))
    (v : β) : (ofList (before ++ (k, v) :: after)).get? k = some v := by
  have hnone : find? k after.reverse = none :=
    find?_eq_none (by rwa [List.map_reverse, List.mem_reverse])
  rw [get?_ofList, List.reverse_append, List.reverse_cons, List.append_assoc, find?_append, hnone, Option.none_or,
    List.singleton_append, find?, if_pos Std.ReflCmp.compare_self]

end OrderedMap
end CheckerTrials
