import CheckerTrials.Proofs.Json.Rounding
import CheckerTrials.Reachability.Document

/-!
# Results documents survive their format

A document that is `Storable` has counts within their limit and finite doubles; these are the documents that there
can be.  Writing such a document and reading the text gives the same document, and whatever is read is storable.  This
is so with every library that does what its documentation says and reads back the quantities that it wrote
(`Document.parse_text_eq_self`).

The only choice without a mark in the format is that between a failure and a finished experiment.  A failure is a
string.  A finished experiment is an object whose first member is a number, so that it is no tag (`tag?_toJson`), and
neither is nested so deep that it could not be looked at twice (`Outcome.written_toJson`).
-/

set_option autoImplicit false

namespace CheckerTrials

open Json (Library Written Documented ReadsBack WrittenField membersOf)
open Json.Library

/-! ## What can be stored -/

/-- The count of components is within its limit, and their average size is a number. -/
structure Components.Storable (c : Components) : Prop where
  /-- The count is within its limit. -/
  count : c.count ≤ Decimal.wordLimit
  /-- The average size is finite. -/
  averageSize : ∀ x ∈ c.averageSize, Decimal.isFinite x = true

/-- The counts of a report are within their limit, and its quantities are numbers. -/
structure Exploration.Storable (e : Exploration) : Prop where
  /-- The time is finite. -/
  time : Decimal.isFinite e.time = true
  /-- The number of states is within its limit. -/
  states : ∀ n ∈ e.states, n ≤ Decimal.wordLimit
  /-- The number of explored states is within its limit. -/
  exploredStates : ∀ n ∈ e.exploredStates, n ≤ Decimal.wordLimit
  /-- So are the numbers about the components. -/
  components : ∀ c ∈ e.components, c.Storable

/-- What a finished experiment reports can be stored. -/
def Outcome.Storable (o : Outcome) : Prop := ∀ e ∈ o.exploration?, e.Storable

/-- All outcomes can be stored. -/
structure Results.Storable (r : Results) : Prop where
  /-- The one of the complete analysis. -/
  complete : ∀ o ∈ r.complete, o.Storable
  /-- Those of the analyses without a bound. -/
  unbounded : ∀ o ∈ r.unbounded.values, o.Storable
  /-- Those of the analyses with a bound. -/
  bounded : ∀ m ∈ r.bounded.values, ∀ o ∈ m.values, o.Storable

/-- The results can be stored. -/
def Instance.Storable (i : Instance) : Prop := i.results.Storable

/-- **All counts are within their limit and all doubles are finite.** -/
def Document.Storable (d : Document) : Prop := ∀ instances ∈ d.values, ∀ i ∈ instances, i.Storable

section Decidable

instance (c : Components) : Decidable c.Storable :=
  decidable_of_iff (c.count ≤ Decimal.wordLimit ∧ ∀ x ∈ c.averageSize, Decimal.isFinite x = true)
    ⟨fun ⟨count, averageSize⟩ => ⟨count, averageSize⟩, fun ⟨count, averageSize⟩ => ⟨count, averageSize⟩⟩

instance (e : Exploration) : Decidable e.Storable :=
  decidable_of_iff (Decimal.isFinite e.time = true ∧ (∀ n ∈ e.states, n ≤ Decimal.wordLimit) ∧
      (∀ n ∈ e.exploredStates, n ≤ Decimal.wordLimit) ∧ ∀ c ∈ e.components, c.Storable)
    ⟨fun ⟨time, states, explored, components⟩ => ⟨time, states, explored, components⟩,
      fun ⟨time, states, explored, components⟩ => ⟨time, states, explored, components⟩⟩

instance (o : Outcome) : Decidable o.Storable :=
  inferInstanceAs (Decidable (∀ e ∈ o.exploration?, e.Storable))

instance (r : Results) : Decidable r.Storable :=
  decidable_of_iff ((∀ o ∈ r.complete, o.Storable) ∧ (∀ o ∈ r.unbounded.values, o.Storable) ∧
      ∀ m ∈ r.bounded.values, ∀ o ∈ m.values, o.Storable)
    ⟨fun ⟨complete, unbounded, bounded⟩ => ⟨complete, unbounded, bounded⟩,
      fun ⟨complete, unbounded, bounded⟩ => ⟨complete, unbounded, bounded⟩⟩

instance (i : Instance) : Decidable i.Storable := inferInstanceAs (Decidable i.results.Storable)

instance (d : Document) : Decidable d.Storable :=
  inferInstanceAs (Decidable (∀ instances ∈ d.values, ∀ i ∈ instances, i.Storable))

end Decidable

section

variable {V : Type} [Library V]

/-! ## Field by field -/

/-- The fields of components. -/
def Components.written (c : Components) : List (WrittenField V) := [
  ⟨"count", .required, some (ofCount c.count)⟩,
  ⟨"average-size", .defaulted, c.averageSize.map ofFloat⟩]

theorem Components.toJson_eq (c : Components) : (c.toJson : V) = ofMembers (membersOf c.written) := by
  obtain ⟨count, averageSize⟩ := c
  cases averageSize <;> rfl

/-- The fields of a report. -/
def Exploration.written (e : Exploration) : List (WrittenField V) := [
  ⟨"time", .required, some (ofFloat e.time)⟩,
  ⟨"states", .defaulted, e.states.map ofCount⟩,
  ⟨"explored-states", .defaulted, e.exploredStates.map ofCount⟩,
  ⟨"components", .defaulted, e.components.map Components.toJson⟩]

theorem Exploration.toJson_eq (e : Exploration) : (e.toJson : V) = ofMembers (membersOf e.written) := by
  obtain ⟨time, states, exploredStates, components⟩ := e
  cases states <;> cases exploredStates <;> cases components <;> rfl

/-- The fields of the results of an instance. -/
def Results.written (r : Results) : List (WrittenField V) := [
  ⟨"complete", .defaulted, r.complete.map Outcome.toJson⟩,
  ⟨"unbounded", .defaulted, some (ofMap Outcome.toJson r.unbounded)⟩,
  ⟨"bounded", .defaulted, some (ofMap (ofMap Outcome.toJson) r.bounded)⟩]

theorem Results.toJson_eq (r : Results) : (r.toJson : V) = ofMembers (membersOf r.written) := by
  obtain ⟨complete, unbounded, bounded⟩ := r
  cases complete <;> rfl

/-- The fields of an instance. -/
def Instance.written (i : Instance) : List (WrittenField V) := [
  ⟨"constants", .required, some (ofString i.constants)⟩,
  ⟨"results", .required, some i.results.toJson⟩]

theorem Instance.toJson_eq (i : Instance) : (i.toJson : V) = ofMembers (membersOf i.written) := rfl

/-! ## What is written -/

theorem Components.written_toJson {c : Components} (h : c.Storable) : Written 1 (c.toJson : V) := by
  rw [toJson_eq]
  refine .ofFields fun f hf v hv => ?_
  simp only [written, List.mem_cons, List.not_mem_nil, or_false] at hf
  rcases hf with rfl | rfl
  · cases hv
    exact .count 0 h.count
  · obtain ⟨x, hx, rfl⟩ := Option.map_eq_some_iff.1 hv
    exact .float 0 (h.averageSize x hx)

theorem Exploration.written_toJson {e : Exploration} (h : e.Storable) : Written 2 (e.toJson : V) := by
  rw [toJson_eq]
  refine .ofFields fun f hf v hv => ?_
  simp only [written, List.mem_cons, List.not_mem_nil, or_false] at hf
  rcases hf with rfl | rfl | rfl | rfl
  · cases hv
    exact .float 1 h.time
  · obtain ⟨n, hn, rfl⟩ := Option.map_eq_some_iff.1 hv
    exact .count 1 (h.states n hn)
  · obtain ⟨n, hn, rfl⟩ := Option.map_eq_some_iff.1 hv
    exact .count 1 (h.exploredStates n hn)
  · obtain ⟨c, hc, rfl⟩ := Option.map_eq_some_iff.1 hv
    exact Components.written_toJson (h.components c hc)

theorem Outcome.written_toJson {o : Outcome} (h : o.Storable) : Written 2 (o.toJson : V) := by
  cases o with
  | failed f => exact .string 2 f.name
  | done e => exact Exploration.written_toJson (h e rfl)

theorem Results.written_toJson {r : Results} (h : r.Storable) : Written 5 (r.toJson : V) := by
  rw [toJson_eq]
  refine .ofFields fun f hf v hv => ?_
  simp only [written, List.mem_cons, List.not_mem_nil, or_false] at hf
  rcases hf with rfl | rfl | rfl
  · obtain ⟨o, ho, rfl⟩ := Option.map_eq_some_iff.1 hv
    exact (Outcome.written_toJson (h.complete o ho)).mono (by decide)
  · cases hv
    exact (Written.ofMap fun o ho => Outcome.written_toJson (h.unbounded o ho)).mono (by decide)
  · cases hv
    exact .ofMap fun m hm => .ofMap fun o ho => Outcome.written_toJson (h.bounded m hm o ho)

theorem Instance.written_toJson {i : Instance} (h : i.Storable) : Written 6 (i.toJson : V) := by
  rw [toJson_eq]
  refine .ofFields fun f hf v hv => ?_
  simp only [written, List.mem_cons, List.not_mem_nil, or_false] at hf
  rcases hf with rfl | rfl
  · cases hv
    exact .string 5 i.constants
  · cases hv
    exact Results.written_toJson h

theorem Document.written_toJson {d : Document} (h : d.Storable) : Written 8 (Document.toJson d : V) :=
  .ofMap fun instances hinstances => .ofList fun i hi => Instance.written_toJson (h instances hinstances i hi)

/-! ## Reading what was written -/

section

variable (hV : Documented V)

include hV

/-- **A failure is its tag.** -/
theorem Failure.ofJson?_ofString (f : Failure) : Failure.ofJson? (ofString f.name : V) = some f := by
  rw [ofJson?, named, hV.tag?_ofString]
  cases f <;> rfl

/-- **A finished experiment is no tag**: the first member of the object is a number, and so it is there. -/
theorem Exploration.tag?_toJson {e : Exploration} (h : e.Storable) : tag? (e.toJson : V) = none := by
  rw [Option.eq_none_iff_forall_ne_some]
  intro tag htag
  have hmembers := hV.eq_of_tag?_ofMembers htag
  exact hV.ne_null (.float 0 h.time) (congrArg Prod.snd (List.cons.inj hmembers).1)

variable (hback : ReadsBack V)

include hback

theorem Components.ofJson?_toJson {c : Components} (h : c.Storable) : ofJson? (c.toJson : V) = some c := by
  have hfields : fields? [("count", .required), ("average-size", .defaulted)] (c.toJson : V) =
      some [some (ofCount c.count), c.averageSize.map ofFloat] := by
    rw [toJson_eq]
    exact Json.fields?_ofFields hV c.written (show ["count", "average-size"].Nodup by decide) (by simp [written])
  have haverageSize : orElse none (optional float?) (c.averageSize.map (ofFloat : Float → V)) = some c.averageSize :=
    Json.orElse_optional_map hV (fun x hx => hback x (h.averageSize x hx)) fun x hx => .float 0 (h.averageSize x hx)
  rw [ofJson?, hfields]
  simp only [required, Option.bind_some, hV.count?_ofCount h.count, haverageSize]
  rfl

theorem Exploration.ofJson?_toJson {e : Exploration} (h : e.Storable) : ofJson? (e.toJson : V) = some e := by
  have hfields : fields? fields (e.toJson : V) = some [some (ofFloat e.time), e.states.map ofCount,
      e.exploredStates.map ofCount, e.components.map Components.toJson] := by
    rw [toJson_eq]
    exact Json.fields?_ofFields hV e.written
      (show ["time", "states", "explored-states", "components"].Nodup by decide) (by simp [written])
  have hcount : ∀ {o : Option Nat}, (∀ n ∈ o, n ≤ Decimal.wordLimit) →
      orElse none (optional count?) (o.map (ofCount : Nat → V)) = some o := fun ho =>
    Json.orElse_optional_map hV (fun n hn => hV.count?_ofCount (ho n hn)) fun n hn => .count 0 (ho n hn)
  have hcomponents : orElse none (optional Components.ofJson?) (e.components.map (Components.toJson : _ → V)) =
      some e.components :=
    Json.orElse_optional_map hV (fun c hc => Components.ofJson?_toJson hV hback (h.components c hc))
      fun c hc => Components.written_toJson (h.components c hc)
  rw [ofJson?, hfields]
  simp only [required, Option.bind_some, hback e.time h.time, hcount h.states, hcount h.exploredStates, hcomponents]
  rfl

/-- **Failures and finished experiments are told apart.** -/
theorem Outcome.ofJson?_toJson {o : Outcome} (h : o.Storable) {outside : Nat} (houtside : outside ≤ 6) :
    ofJson? outside (o.toJson : V) = some o := by
  have hdepth : outside + 2 ≤ Json.depthLimit := (Nat.add_le_add_right houtside 2).trans (by decide)
  rw [ofJson?, hV.firstOf_eq _ (written_toJson h) hdepth]
  cases o with
  | failed f => simp only [toJson, List.findSome?_cons, Failure.ofJson?_ofString hV, Option.map_some]
  | done e =>
    have hfailure : Failure.ofJson? (e.toJson : V) = none := by
      rw [Failure.ofJson?, named, Exploration.tag?_toJson hV (h e rfl), Option.bind_none]
    simp only [toJson, List.findSome?_cons, hfailure, Exploration.ofJson?_toJson hV hback (h e rfl), Option.map_none,
      Option.map_some]

theorem Results.ofJson?_toJson {r : Results} (h : r.Storable) : ofJson? (r.toJson : V) = some r := by
  have hfields : fields? fields (r.toJson : V) = some [r.complete.map Outcome.toJson,
      some (ofMap Outcome.toJson r.unbounded), some (ofMap (ofMap Outcome.toJson) r.bounded)] := by
    rw [toJson_eq]
    exact Json.fields?_ofFields hV r.written (show ["complete", "unbounded", "bounded"].Nodup by decide)
      (by simp [written])
  have hcomplete : orElse none (optional (Outcome.ofJson? 4)) (r.complete.map (Outcome.toJson : _ → V)) =
      some r.complete :=
    Json.orElse_optional_map hV (fun o ho => Outcome.ofJson?_toJson hV hback (h.complete o ho) (by decide))
      fun o ho => Outcome.written_toJson (h.complete o ho)
  have hunbounded : map (Outcome.ofJson? 5) (ofMap (Outcome.toJson : _ → V) r.unbounded) = some r.unbounded :=
    Json.map_ofMap hV fun o ho => Outcome.ofJson?_toJson hV hback (h.unbounded o ho) (by decide)
  have hbounded : map (map (Outcome.ofJson? 6)) (ofMap (ofMap (Outcome.toJson : _ → V)) r.bounded) =
      some r.bounded :=
    Json.map_ofMap hV fun m hm => Json.map_ofMap hV fun o ho =>
      Outcome.ofJson?_toJson hV hback (h.bounded m hm o ho) (by decide)
  rw [ofJson?, hfields]
  simp only [orElse, hunbounded, hbounded] at hcomplete ⊢
  rw [hcomplete]
  rfl

theorem Instance.ofJson?_toJson {i : Instance} (h : i.Storable) : ofJson? (i.toJson : V) = some i := by
  have hfields : fields? [("constants", .required), ("results", .required)] (i.toJson : V) =
      some [some (ofString i.constants), some i.results.toJson] := by
    rw [toJson_eq]
    exact Json.fields?_ofFields hV i.written (show ["constants", "results"].Nodup by decide) (by simp [written])
  rw [ofJson?, hfields]
  simp only [required, Option.bind_some, hV.string?_ofString, Results.ofJson?_toJson hV hback h]
  rfl

theorem Document.ofJson?_toJson {d : Document} (h : d.Storable) : ofJson? (toJson d : V) = some d :=
  Json.map_ofMap hV fun instances hinstances =>
    Json.list_ofList hV fun i hi => Instance.ofJson?_toJson hV hback (h instances hinstances i hi)

/-- **A storable document** is read from its own text. -/
theorem Document.parse_text {d : Document} (h : d.Storable) : parse d.text = .ok d := by
  rw [parse, Json.decode, text, hV.read?_text (written_toJson h) (by decide)]
  dsimp only
  rw [ofJson?_toJson hV hback h]
  rfl

end

/-! ## What was read can be stored -/

theorem Components.storable_of_ofJson? (v : V) (c : Components) (h : ofJson? v = some c) : c.Storable := by
  unfold ofJson? at h
  split at h
  · simp only [Option.bind_eq_bind, Option.bind_eq_some_iff, Option.pure_def, Option.some.injEq] at h
    obtain ⟨count, hcount, averageSize, haverageSize, rfl⟩ := h
    exact {
      count := Json.of_required (fun _ _ => le_of_count?) hcount
      averageSize := Json.of_orElse_optional (fun _ _ => isFinite_of_float?) haverageSize }
  · cases h

theorem Exploration.storable_of_ofJson? (v : V) (e : Exploration) (h : ofJson? v = some e) : e.Storable := by
  unfold ofJson? at h
  split at h
  · simp only [Option.bind_eq_bind, Option.bind_eq_some_iff, Option.pure_def, Option.some.injEq] at h
    obtain ⟨time, htime, states, hstates, explored, hexplored, components, hcomponents, rfl⟩ := h
    exact {
      time := Json.of_required (fun _ _ => isFinite_of_float?) htime
      states := Json.of_orElse_optional (fun _ _ => le_of_count?) hstates
      exploredStates := Json.of_orElse_optional (fun _ _ => le_of_count?) hexplored
      components := Json.of_orElse_optional Components.storable_of_ofJson? hcomponents }
  · cases h

theorem Outcome.storable_of_ofJson? (outside : Nat) (v : V) (o : Outcome) (h : ofJson? outside v = some o) :
    o.Storable := by
  obtain ⟨read, hread, w, hw⟩ := of_firstOf h
  rcases List.mem_pair.1 hread with rfl | rfl
  · obtain ⟨f, -, rfl⟩ := Option.map_eq_some_iff.1 hw
    nofun
  · obtain ⟨e, he, rfl⟩ := Option.map_eq_some_iff.1 hw
    rintro e' ⟨⟩
    exact Exploration.storable_of_ofJson? w e he

theorem Results.storable_of_ofJson? (v : V) (r : Results) (h : ofJson? v = some r) : r.Storable := by
  unfold ofJson? at h
  split at h
  · simp only [Option.bind_eq_bind, Option.bind_eq_some_iff, Option.pure_def, Option.some.injEq] at h
    obtain ⟨complete, hcomplete, unbounded, hunbounded, bounded, hbounded, rfl⟩ := h
    have hmap : ∀ (w : V) (m : NameMap Outcome), map (Outcome.ofJson? 6) w = some m → ∀ o ∈ m.values, o.Storable :=
      fun w m hm o ho => by
        obtain ⟨u, hu⟩ := of_map hm o ho
        exact Outcome.storable_of_ofJson? 6 u o hu
    exact {
      complete := Json.of_orElse_optional (Outcome.storable_of_ofJson? 4) hcomplete
      unbounded := Json.of_orElse_map (Outcome.storable_of_ofJson? 5) hunbounded
      bounded := Json.of_orElse_map hmap hbounded }
  · cases h

theorem Instance.storable_of_ofJson? (v : V) (i : Instance) (h : ofJson? v = some i) : i.Storable := by
  unfold ofJson? at h
  split at h
  · simp only [Option.bind_eq_bind, Option.bind_eq_some_iff, Option.pure_def, Option.some.injEq] at h
    obtain ⟨constants, -, results, hresults, rfl⟩ := h
    exact Json.of_required Results.storable_of_ofJson? hresults
  · cases h

/-- **Whatever is read** can be stored. -/
theorem Document.storable_of_parse {s : String} {d : Document} (h : parse s = .ok d) : d.Storable := by
  rw [parse, mapError_eq_ok_iff, Json.decode] at h
  split at h
  · cases h
  · split at h
    · cases h
    · rename_i v _ _ hd
      cases h
      intro instances hinstances i hi
      obtain ⟨w, hw⟩ := of_map hd instances hinstances
      obtain ⟨u, hu⟩ := of_list hw i hi
      exact Instance.storable_of_ofJson? u i hu

/-- **Results documents survive their format**, with any library that does what its documentation says and reads the
quantities back that it wrote.  Every document with counts within their limit and finite doubles is read from the text
that is written for it, and so is every document that was read from any text. -/
theorem Document.parse_text_eq_self (hV : Documented V) (hback : ReadsBack V) :
    (∀ d : Document, d.Storable → parse d.text = .ok d) ∧
      ∀ (s : String) (d : Document), parse s = .ok d → parse d.text = .ok d :=
  ⟨fun _ h => parse_text hV hback h, fun _ _ h => parse_text hV hback (storable_of_parse h)⟩

end

namespace Document

/-- A document with a name that has to be escaped, the greatest count and a negative zero. -/
def sampleDocument : Document :=
  .ofList [("brp \"2\".pm", [⟨"N=16\tMAX=2", {
    complete := some (.done ⟨-0.0, some 1000, some 18446744073709551615, some ⟨3, some 1e-7⟩⟩)
    unbounded := .ofList [("PROB", .failed .timeout), ("WEIGHTED", .done ⟨12.5, none, none, none⟩)]
    bounded := .ofList [("10", .ofList [("WEIGHTED", .failed .memout)])] }⟩])]

/-- A text with spaces, a number in another form and a model that is there twice. -/
def sampleText : String :=
  "\x7b\"brp.pm\": [], \"brp.pm\": [ \x7b\"results\": \x7b\"complete\": " ++
    "\x7b\"states\": null, \"time\": 125E-1\x7d\x7d, \"constants\": \"\"\x7d ] \x7d"

/-- The document that the text says. -/
def sampleReading : Document :=
  .ofList [("brp.pm", [⟨"", { Results.empty with complete := some (.done ⟨12.5, none, none, none⟩) }⟩])]

theorem parse_text_samples :
    Documented Json.Value ∧ ReadsBack Json.Value ∧
      (sampleDocument.Storable ∧ parse sampleDocument.text = .ok sampleDocument) ∧
      parse sampleText = .ok sampleReading ∧ parse sampleReading.text = .ok sampleReading := by
  have hsurvive := parse_text_eq_self Json.Value.documented Json.Value.readsBack
  have hstorable : sampleDocument.Storable := by decide +kernel
  have hparse : parse sampleText = .ok sampleReading := by decide +kernel
  exact ⟨Json.Value.documented, Json.Value.readsBack, ⟨hstorable, hsurvive.1 sampleDocument hstorable⟩, hparse,
    hsurvive.2 sampleText sampleReading hparse⟩

end Document

end CheckerTrials
