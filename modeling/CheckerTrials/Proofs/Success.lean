/-!
# When a computation that may fail succeeds

The readers of this library are chains of steps any of which may fail.  These lemmas take a chain that has
succeeded apart: every step of it has succeeded, and what it gave went into the next one.  If a chain has failed,
the steps up to one have succeeded, and that one has failed.  If something else is done with one member of a list,
what it gives is put in the place of what it gave (`mapM_change`).
-/

set_option autoImplicit false

namespace CheckerTrials

variable {ε ζ α β : Type}

theorem bind_ok (a : α) (f : α → Except ε β) : Except.ok a >>= f = f a := rfl

theorem bind_error (e : ε) (f : α → Except ε β) : Except.error e >>= f = .error e := rfl

theorem bind_eq_ok_iff {x : Except ε α} {f : α → Except ε β} {b : β} :
    x >>= f = .ok b ↔ ∃ a, x = .ok a ∧ f a = .ok b := by
  cases x with
  | error e => simp [bind, Except.bind]
  | ok a => simp [bind, Except.bind]

theorem bind_eq_error_iff {x : Except ε α} {f : α → Except ε β} {e : ε} :
    x >>= f = .error e ↔ x = .error e ∨ ∃ a, x = .ok a ∧ f a = .error e := by
  cases x with
  | error e => simp [bind, Except.bind]
  | ok a => simp [bind, Except.bind]

theorem map_eq_ok_iff {x : Except ε α} {f : α → β} {b : β} :
    x.map f = .ok b ↔ ∃ a, x = .ok a ∧ f a = b := by
  cases x <;> simp [Except.map]

theorem exists_map_eq_ok_iff {x : Except ε α} {f : α → β} : (∃ b, x.map f = .ok b) ↔ ∃ a, x = .ok a := by
  cases x <;> simp [Except.map]

theorem map_eq_error_iff {x : Except ε α} {f : α → β} {e : ε} :
    x.map f = .error e ↔ x = .error e := by
  cases x <;> simp [Except.map]

theorem mapError_eq_ok_iff {x : Except ε α} {f : ε → ζ} {a : α} :
    x.mapError f = .ok a ↔ x = .ok a := by
  cases x with
  | error e =>
    show (.error (f e) : Except ζ α) = .ok a ↔ (.error e : Except ε α) = .ok a
    simp
  | ok b =>
    show (.ok b : Except ζ α) = .ok a ↔ (.ok b : Except ε α) = .ok a
    simp

theorem mapError_eq_error_iff {x : Except ε α} {f : ε → ζ} {z : ζ} :
    x.mapError f = .error z ↔ ∃ e, x = .error e ∧ f e = z := by
  cases x with
  | error e =>
    show (.error (f e) : Except ζ α) = .error z ↔ ∃ e', (.error e : Except ε α) = .error e' ∧ f e' = z
    simp
  | ok a =>
    show (.ok a : Except ζ α) = .error z ↔ ∃ e', (.ok a : Except ε α) = .error e' ∧ f e' = z
    simp

theorem toOption_eq_some_iff {x : Except ε α} {a : α} : x.toOption = some a ↔ x = .ok a := by
  cases x <;> simp [Except.toOption]

theorem exists_of_isOk {x : Except ε α} (h : x.isOk = true) : ∃ a, x = .ok a := by
  cases x with
  | error e => cases h
  | ok a => exact ⟨a, rfl⟩

/-- Two results with the same successes are the same success or both failures. -/
theorem ok_or_error_of_ok_iff {x y : Except ε α} (h : ∀ a, x = .ok a ↔ y = .ok a) :
    (∃ a, x = .ok a ∧ y = .ok a) ∨ ∃ e e', x = .error e ∧ y = .error e' := by
  cases hx : x with
  | ok a => exact .inl ⟨a, rfl, (h a).1 hx⟩
  | error e =>
    cases hy : y with
    | ok a =>
      rw [(h a).2 hy] at hx
      cases hx
    | error e' => exact .inr ⟨e, e', rfl, rfl⟩

/-! ## Chains along a list -/

/-- All members of a list have succeeded. -/
theorem mapM_eq_ok_iff {f : α → Except ε β} {xs : List α} {ys : List β} :
    xs.mapM f = .ok ys ↔ xs.map f = ys.map .ok := by
  induction xs generalizing ys with
  | nil => cases ys <;> simp [pure, Except.pure]
  | cons x rest ih =>
    rw [List.mapM_cons, bind_eq_ok_iff]
    cases ys with
    | nil => simp [bind_eq_ok_iff, pure, Except.pure]
    | cons y others =>
      rw [List.map_cons, List.map_cons, List.cons.injEq]
      simp [bind_eq_ok_iff, pure, Except.pure, ih]

theorem mapM_eq_some_iff {f : α → Option β} {xs : List α} {ys : List β} :
    xs.mapM f = some ys ↔ xs.map f = ys.map some := by
  induction xs generalizing ys with
  | nil => cases ys <;> simp
  | cons x rest ih =>
    rw [List.mapM_cons, Option.bind_eq_bind, Option.bind_eq_some_iff]
    cases ys with
    | nil => simp [Option.bind_eq_some_iff]
    | cons y others =>
      rw [List.map_cons, List.map_cons, List.cons.injEq]
      simp [Option.bind_eq_some_iff, ih]

/-- The first member that has not succeeded has failed. -/
theorem mapM_eq_error_iff {f : α → Except ε β} {xs : List α} {e : ε} :
    xs.mapM f = .error e ↔ ∃ a, xs.find? (fun a => !(f a).isOk) = some a ∧ f a = .error e := by
  induction xs with
  | nil => simp [pure, Except.pure]
  | cons x rest ih =>
    rw [List.mapM_cons, bind_eq_error_iff, List.find?_cons]
    cases hx : f x with
    | error e' => simp [Except.isOk, Except.toBool, hx]
    | ok y => simp [Except.isOk, Except.toBool, bind_eq_error_iff, pure, Except.pure, ih]

theorem mapM_congr_of_mem {f g : α → Except ε β} {xs : List α} (h : ∀ a ∈ xs, g a = f a) :
    xs.mapM g = xs.mapM f := by
  induction xs with
  | nil => rfl
  | cons x rest ih =>
    rw [List.mapM_cons, List.mapM_cons, h x List.mem_cons_self,
      ih fun a ha => h a (List.mem_cons_of_mem x ha)]

/-- If a list has succeeded, each of its members has. -/
theorem exists_ok_of_mapM {f : α → Except ε β} {xs : List α} {ys : List β} (h : xs.mapM f = .ok ys) {a : α}
    (ha : a ∈ xs) : ∃ b ∈ ys, f a = .ok b := by
  have hmem : f a ∈ xs.map f := List.mem_map_of_mem ha
  rw [mapM_eq_ok_iff.1 h, List.mem_map] at hmem
  obtain ⟨b, hb, heq⟩ := hmem
  exact ⟨b, hb, heq.symm⟩

/-- A list succeeds if each of its members does. -/
theorem exists_mapM_iff {f : α → Except ε β} {xs : List α} :
    (∃ ys, xs.mapM f = .ok ys) ↔ ∀ a ∈ xs, ∃ b, f a = .ok b := by
  refine ⟨fun ⟨ys, hys⟩ a ha => ?_, fun h => ?_⟩
  · obtain ⟨b, -, hb⟩ := exists_ok_of_mapM hys ha
    exact ⟨b, hb⟩
  · induction xs with
    | nil => exact ⟨[], rfl⟩
    | cons x rest ih =>
      obtain ⟨y, hy⟩ := h x List.mem_cons_self
      obtain ⟨ys, hys⟩ := ih fun a ha => h a (List.mem_cons_of_mem x ha)
      exact ⟨y :: ys, by rw [List.mapM_cons, hy, bind_ok, hys]; rfl⟩

/-- What comes of a list comes of one of its members. -/
theorem exists_mem_of_mapM {f : α → Except ε β} {xs : List α} {ys : List β} (h : xs.mapM f = .ok ys) {b : β}
    (hb : b ∈ ys) : ∃ a ∈ xs, f a = .ok b := by
  have hmem : Except.ok b ∈ xs.map f := mapM_eq_ok_iff.1 h ▸ List.mem_map_of_mem hb
  exact List.mem_map.1 hmem

/-- What comes of a list of lists, taken together, comes of one of its members. -/
theorem mem_flatten_iff_of_mapM {f : α → Except ε (List β)} {xs : List α} {ys : List (List β)}
    (h : xs.mapM f = .ok ys) {b : β} : b ∈ ys.flatten ↔ ∃ a ∈ xs, ∃ bs, f a = .ok bs ∧ b ∈ bs := by
  rw [List.mem_flatten]
  constructor
  · rintro ⟨bs, hbs, hb⟩
    obtain ⟨a, ha, hok⟩ := exists_mem_of_mapM h hbs
    exact ⟨a, ha, bs, hok, hb⟩
  · rintro ⟨a, ha, bs, hbs, hb⟩
    obtain ⟨bs', hmem, hbs'⟩ := exists_ok_of_mapM h ha
    rw [hbs] at hbs'
    cases hbs'
    exact ⟨bs, hmem, hb⟩

/-- What comes of the members of a list stands in the order of the members. -/
theorem pairwise_of_mapM {f : α → Except ε β} {xs : List α} {ys : List β} (h : xs.mapM f = .ok ys)
    {R : α → α → Prop} (hxs : xs.Pairwise R) {S : β → β → Prop}
    (hS : ∀ {a a' b b'}, R a a' → f a = .ok b → f a' = .ok b' → S b b') : ys.Pairwise S := by
  have hmap : (xs.map f).Pairwise fun x y => ∀ b b', x = .ok b → y = .ok b' → S b b' :=
    List.pairwise_map.2 (hxs.imp fun hR _ _ hb hb' => hS hR hb hb')
  rw [mapM_eq_ok_iff.1 h, List.pairwise_map] at hmap
  exact hmap.imp fun hall => hall _ _ rfl rfl

/-- What comes of the members can be worked on afterwards. -/
theorem mapM_then_map (f : α → Except ε β) (g : β → ζ) (xs : List α) :
    (xs.mapM fun a => (f a).map g) = (xs.mapM f).map (List.map g) := by
  induction xs with
  | nil => rfl
  | cons x rest ih =>
    rw [List.mapM_cons, List.mapM_cons, ih]
    cases f x with
    | error e => rfl
    | ok y =>
      rw [bind_ok]
      cases rest.mapM f <;> rfl

/-- A member that stands in a list once is what the others are apart from. -/
theorem exists_split {xs : List α} (h : xs.Nodup) {a : α} (ha : a ∈ xs) :
    ∃ before after, xs = before ++ a :: after ∧ a ∉ before ++ after := by
  obtain ⟨before, after, rfl⟩ := List.append_of_mem ha
  exact ⟨before, after, rfl, (List.nodup_cons.1 (List.perm_middle.nodup_iff.1 h)).1⟩

theorem mem_split_of_mem {before after : List α} {a b : α} (h : b ∈ before ++ after) : b ∈ before ++ a :: after :=
  ((List.sublist_cons_self a after).append_left before).subset h

/-- **One member changes.**  If all members of a list have succeeded and something else is done with one of them,
it depends on that one what comes of the list, and the others stay as they were. -/
theorem mapM_change {f g : α → Except ε β} {before after : List α} {a : α} {ys : List β}
    (hok : (before ++ a :: after).mapM f = .ok ys) (hsame : ∀ b ∈ before ++ after, g b = f b) :
    ∃ first y last, ys = first ++ y :: last ∧ before.mapM f = .ok first ∧ f a = .ok y ∧
      after.mapM f = .ok last ∧
      (before ++ a :: after).mapM g = (g a).map fun z => first ++ z :: last := by
  rw [List.mapM_append, bind_eq_ok_iff] at hok
  obtain ⟨first, hfirst, hok⟩ := hok
  rw [List.mapM_cons, bind_eq_ok_iff] at hok
  obtain ⟨rest, hrest, hys⟩ := hok
  cases hys
  rw [bind_eq_ok_iff] at hrest
  obtain ⟨y, hy, hrest⟩ := hrest
  rw [bind_eq_ok_iff] at hrest
  obtain ⟨last, hlast, hcons⟩ := hrest
  cases hcons
  refine ⟨first, y, last, rfl, hfirst, hy, hlast, ?_⟩
  have hbefore := mapM_congr_of_mem fun b hb => hsame b (List.mem_append_left after hb)
  have hafter := mapM_congr_of_mem fun b hb => hsame b (List.mem_append_right before hb)
  rw [List.mapM_append, List.mapM_cons, hbefore, hafter, hfirst, hlast]
  cases g a <;> rfl

end CheckerTrials
