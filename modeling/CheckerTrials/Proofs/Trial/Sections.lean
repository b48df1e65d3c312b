import CheckerTrials.Proofs.Trial.Numbers
import CheckerTrials.Proofs.Trial.WellFormed

/-!
# What a text result says

Which texts are results, and what they say, is told here without the reader: section by section and word by
word.  `TextResult.Accepted` describes the lines that are read, and `TextResult.FirstFault` the fault that is
named of the others; of several faults it is the one that comes first.  The reader does exactly that
(`reads_exactly`): a missing section counts before everything else, then the command line, then the numbers of
the series, and last their lengths.

What comes after the fifth line is not looked at, and the meaning of the last section changes nothing but what is
read from that section.
-/

set_option autoImplicit false

namespace CheckerTrials

namespace Section

/-- The sections that are lines of numbers. -/
def series : List Section := [.times, .lower, .upper]

/-- The numbers of a section, if its line is there and every word of it is a number. -/
def values? (s : Section) (lines : List (List Char)) : Option (List Float) :=
  (s.line? lines).bind Series.values?

/-- The number of words in a section, if its line is there. -/
def wordCount? (s : Section) (lines : List (List Char)) : Option Nat :=
  (s.line? lines).map fun line => (Text.words line).length

/-- A section has as many numbers as words. -/
theorem wordCount?_of_values? {s : Section} {lines : List (List Char)} {xs : List Float}
    (h : s.values? lines = some xs) : s.wordCount? lines = some xs.length := by
  obtain ⟨line, hline, hxs⟩ := Option.bind_eq_some_iff.1 h
  rw [wordCount?, hline, Option.map_some, Series.length_of_valuesOf? hxs]

theorem line?_eq_some_iff {s : Section} {lines : List (List Char)} {line : List Char} :
    s.line? lines = some line ↔ lines[s.index]? = some line ∧ Text.isBlankText line = false := by
  rw [line?, Option.filter_eq_some_iff]
  simp

end Section

namespace TextResult

/-- The lines of a result that is read, and what they say. -/
structure Accepted (lines : List (List Char)) (i : Invocation) (times lower upper : List Float) :
    Prop where
  /-- The first line is a command line. -/
  commandLine : ∃ line, Section.invocation.line? lines = some line ∧
    Invocation.parse (String.ofList line) = .ok i
  /-- The second line holds the times. -/
  timesLine : Section.times.values? lines = some times
  /-- The third line holds the lower bounds. -/
  lowerLine : Section.lower.values? lines = some lower
  /-- The fourth line holds the upper bounds. -/
  upperLine : Section.upper.values? lines = some upper
  /-- There are equally many of them. -/
  lengths : lower.length = times.length ∧ upper.length = times.length

/-- Whether a text is read can be tested without reading any number. -/
theorem exists_accepted {lines : List (List Char)} {command : List Char}
    (hcommand : Section.invocation.line? lines = some command)
    (hi : (Invocation.parse (String.ofList command)).isOk = true)
    (hseries : ∀ s ∈ Section.series, (s.values? lines).isSome)
    (hcounts : ∀ s ∈ Section.series, s.wordCount? lines = Section.times.wordCount? lines) :
    ∃ i times lower upper, Accepted lines i times lower upper := by
  simp only [Section.series, List.mem_cons, List.not_mem_nil, or_false, forall_eq_or_imp, forall_eq,
    Option.isSome_iff_exists] at hseries hcounts
  obtain ⟨i, hi⟩ := exists_of_isOk hi
  obtain ⟨⟨times, htimes⟩, ⟨lower, hlower⟩, ⟨upper, hupper⟩⟩ := hseries
  rw [Section.wordCount?_of_values? htimes, Section.wordCount?_of_values? hlower,
    Section.wordCount?_of_values? hupper] at hcounts
  exact ⟨i, times, lower, upper, ⟨command, hcommand, hi⟩, htimes, hlower, hupper,
    Option.some.inj hcounts.2.1, Option.some.inj hcounts.2.2⟩

/-- The fault that comes first in the lines of a text that is no result. -/
inductive FirstFault (lines : List (List Char)) : ResultError → Prop
  /-- A section is missing, and none before it is. -/
  | missing {s : Section} (hs : s ∈ Section.required) (hmissing : s.line? lines = none)
      (hbefore : ∀ r ∈ Section.required, r.index < s.index → (r.line? lines).isSome) :
      FirstFault lines (.missing s)
  /-- No section is missing, but the first line is no command line. -/
  | invocation {line : List Char} {e : InvocationError}
      (hall : ∀ r ∈ Section.required, (r.line? lines).isSome)
      (hline : Section.invocation.line? lines = some line)
      (he : Invocation.parse (String.ofList line) = .error e) : FirstFault lines (.invocation e)
  /-- The command line can be read, but a section holds a word that is no number, and none before it
  does. -/
  | number {first line : List Char} {i : Invocation} {s : Section} {e : NumberError}
      (hall : ∀ r ∈ Section.required, (r.line? lines).isSome)
      (hfirst : Section.invocation.line? lines = some first)
      (hi : Invocation.parse (String.ofList first) = .ok i) (hs : s ∈ Section.series)
      (hbefore : ∀ r ∈ Section.series, r.index < s.index → (r.values? lines).isSome)
      (hvalues : s.values? lines = none) (hline : s.line? lines = some line)
      (he : Series.read line = .error e) : FirstFault lines (.number s e)
  /-- All sections can be read, but there are not equally many numbers in them. -/
  | lengths {first : List Char} {i : Invocation} {times lower upper : List Float}
      (hfirst : Section.invocation.line? lines = some first)
      (hi : Invocation.parse (String.ofList first) = .ok i)
      (htimes : Section.times.values? lines = some times)
      (hlower : Section.lower.values? lines = some lower)
      (hupper : Section.upper.values? lines = some upper)
      (hne : ¬ (lower.length = times.length ∧ upper.length = times.length)) :
      FirstFault lines (.lengths times.length lower.length upper.length)

/-! ## The required sections -/

/-- A series is read if its words are numbers. -/
theorem series_eq_ok_iff {s : Section} {line : List Char} {xs : List Float} :
    series s line = .ok xs ↔ Series.values? line = some xs := by
  rw [series, mapError_eq_ok_iff, Series.read_eq_ok_iff]

theorem series_eq_error_iff {s : Section} {line : List Char} {e : ResultError} :
    series s line = .error e ↔ ∃ f, Series.read line = .error f ∧ .number s f = e := by
  rw [series, mapError_eq_error_iff]

/-- **The section that is missing** is the first one: no section before it is. -/
theorem find?_required_eq_some_iff {lines : List (List Char)} {s : Section} :
    (Section.required.find? fun r => (r.line? lines).isNone) = some s ↔
      s ∈ Section.required ∧ s.line? lines = none ∧
        ∀ r ∈ Section.required, r.index < s.index → (r.line? lines).isSome := by
  have hordered : Section.required.Pairwise fun r s => r.index < s.index := by decide
  rw [List.find?_eq_some_iff_append, Option.isNone_iff_eq_none]
  constructor
  · rintro ⟨hnone, before, after, hsplit, hbefore⟩
    rw [hsplit] at hordered ⊢
    refine ⟨by simp, hnone, fun r hr hless => ?_⟩
    rcases List.mem_append.1 hr with hr | hr
    · simpa using hbefore r hr
    · rcases List.mem_cons.1 hr with rfl | hr
      · omega
      · have hafter := (List.pairwise_cons.1 (List.pairwise_append.1 hordered).2.1).1 r hr
        omega
  · rintro ⟨hs, hnone, hbefore⟩
    obtain ⟨before, after, hsplit⟩ := List.append_of_mem hs
    refine ⟨hnone, before, after, hsplit, fun r hr => ?_⟩
    rw [hsplit] at hordered hbefore
    have hless := (List.pairwise_append.1 hordered).2.2 r hr s List.mem_cons_self
    simpa using hbefore r (List.mem_append_left _ hr) hless

/-- The sections that every result has, one for each of the first four lines. -/
structure Lines (lines : List (List Char)) (command times lower upper : List Char) : Prop where
  /-- The first line is there. -/
  command : Section.invocation.line? lines = some command
  /-- The second line is there. -/
  times : Section.times.line? lines = some times
  /-- The third line is there. -/
  lower : Section.lower.line? lines = some lower
  /-- The fourth line is there. -/
  upper : Section.upper.line? lines = some upper

/-- A text that has all sections has their lines. -/
theorem exists_lines {lines : List (List Char)}
    (h : ∀ r ∈ Section.required, (r.line? lines).isSome) :
    ∃ command times lower upper, Lines lines command times lower upper := by
  simp only [Section.required, List.mem_cons, List.not_mem_nil, or_false, forall_eq_or_imp, forall_eq,
    Option.isSome_iff_exists] at h
  obtain ⟨⟨command, hcommand⟩, ⟨times, htimes⟩, ⟨lower, hlower⟩, ⟨upper, hupper⟩⟩ := h
  exact ⟨command, times, lower, upper, hcommand, htimes, hlower, hupper⟩

/-- Sections that are there are read one after the other. -/
theorem Lines.parseSections_eq {lines : List (List Char)} {command times lower upper : List Char}
    (h : Lines lines command times lower upper) :
    parseSections lines = (do
      let i ← (Invocation.parse (String.ofList command)).mapError .invocation
      let ts ← series .times times
      let ls ← series .lower lower
      let us ← series .upper upper
      if ts.length ≠ ls.length ∨ ts.length ≠ us.length then
        .error (.lengths ts.length ls.length us.length)
      else .ok (i, ts, ls, us)) := by
  have hfind : (Section.required.find? fun r => (r.line? lines).isNone) = none := by
    simp [Section.required, h.command, h.times, h.lower, h.upper]
  have hget : ∀ {s : Section} {line : List Char}, s.line? lines = some line →
      lines[s.index]?.getD [] = line := fun hline => by
    rw [(Section.line?_eq_some_iff.1 hline).1, Option.getD_some]
  simp only [parseSections, hfind, hget h.command, hget h.times, hget h.lower, hget h.upper]

theorem Accepted.exists_lines {lines : List (List Char)} {i : Invocation} {ts ls us : List Float}
    (h : Accepted lines i ts ls us) : ∃ command times lower upper,
      Lines lines command times lower upper ∧ Invocation.parse (String.ofList command) = .ok i ∧
      Series.values? times = some ts ∧ Series.values? lower = some ls ∧ Series.values? upper = some us := by
  obtain ⟨command, hcommand, hi⟩ := h.commandLine
  obtain ⟨times, htimes, hts⟩ := Option.bind_eq_some_iff.1 h.timesLine
  obtain ⟨lower, hlower, hls⟩ := Option.bind_eq_some_iff.1 h.lowerLine
  obtain ⟨upper, hupper, hus⟩ := Option.bind_eq_some_iff.1 h.upperLine
  exact ⟨command, times, lower, upper, ⟨hcommand, htimes, hlower, hupper⟩, hi, hts, hls, hus⟩

/-- A series cannot be read if a word in it is no number. -/
theorem values?_eq_none_iff {line : List Char} :
    Series.values? line = none ↔ ∃ e, Series.read line = .error e := by
  cases hread : Series.read line with
  | ok xs => simp [Series.read_eq_ok_iff.1 hread]
  | error e =>
    cases hvalues : Series.values? line with
    | none => simp
    | some xs =>
      rw [Series.read_eq_ok_iff.2 hvalues] at hread
      cases hread

/-- Either a section is missing, or the lines of all sections are there. -/
theorem missing_or_exists_lines (lines : List (List Char)) :
    (∃ s, (s ∈ Section.required ∧ s.line? lines = none ∧
      ∀ r ∈ Section.required, r.index < s.index → (r.line? lines).isSome) ∧
        parseSections lines = .error (.missing s)) ∨
    ∃ command times lower upper, Lines lines command times lower upper := by
  cases hfind : Section.required.find? fun r => (r.line? lines).isNone with
  | some s => exact .inl ⟨s, find?_required_eq_some_iff.1 hfind, by rw [parseSections, hfind]⟩
  | none =>
    rw [List.find?_eq_none] at hfind
    exact .inr (exists_lines fun r hr => by simpa [Option.isSome_iff_ne_none] using hfind r hr)

/-- **The required sections are read** exactly if they say something. -/
theorem parseSections_eq_ok_iff {lines : List (List Char)} {i : Invocation} {ts ls us : List Float} :
    parseSections lines = .ok (i, ts, ls, us) ↔ Accepted lines i ts ls us := by
  constructor
  · intro h
    rcases missing_or_exists_lines lines with ⟨s, -, hs⟩ | ⟨command, times, lower, upper, hlines⟩
    · rw [hs] at h
      cases h
    · rw [hlines.parseSections_eq] at h
      obtain ⟨i', hi, h⟩ := bind_eq_ok_iff.1 h
      obtain ⟨ts', hts, h⟩ := bind_eq_ok_iff.1 h
      obtain ⟨ls', hls, h⟩ := bind_eq_ok_iff.1 h
      obtain ⟨us', hus, h⟩ := bind_eq_ok_iff.1 h
      split at h
      · cases h
      · rename_i hlengths
        cases h
        simp only [ne_eq, not_or, Decidable.not_not] at hlengths
        refine ⟨⟨command, hlines.command, mapError_eq_ok_iff.1 hi⟩, ?_, ?_, ?_, hlengths.1.symm,
          hlengths.2.symm⟩
        · exact Option.bind_eq_some_iff.2 ⟨times, hlines.times, series_eq_ok_iff.1 hts⟩
        · exact Option.bind_eq_some_iff.2 ⟨lower, hlines.lower, series_eq_ok_iff.1 hls⟩
        · exact Option.bind_eq_some_iff.2 ⟨upper, hlines.upper, series_eq_ok_iff.1 hus⟩
  · intro h
    obtain ⟨command, times, lower, upper, hlines, hi, hts, hls, hus⟩ := h.exists_lines
    rw [hlines.parseSections_eq, mapError_eq_ok_iff.2 hi, series_eq_ok_iff.2 hts,
      series_eq_ok_iff.2 hls, series_eq_ok_iff.2 hus]
    simp only [bind_ok]
    rw [if_neg (by simp [h.lengths.1, h.lengths.2])]

theorem Lines.isSome {lines : List (List Char)} {command times lower upper : List Char}
    (h : Lines lines command times lower upper) : ∀ r ∈ Section.required, (r.line? lines).isSome := by
  simp [Section.required, h.command, h.times, h.lower, h.upper]

/-- A section whose line is there has the numbers of that line. -/
theorem values?_of_line? {s : Section} {lines : List (List Char)} {line : List Char}
    (h : s.line? lines = some line) : s.values? lines = Series.values? line := by
  rw [Section.values?, h, Option.bind_some]

/-- A series that is there can be read if its section has numbers. -/
theorem exists_series {s : Section} {lines : List (List Char)} {line : List Char}
    (hline : s.line? lines = some line) (h : (s.values? lines).isSome) :
    ∃ xs, series s line = .ok xs := by
  obtain ⟨xs, hxs⟩ := Option.isSome_iff_exists.1 h
  rw [values?_of_line? hline] at hxs
  exact ⟨xs, series_eq_ok_iff.2 hxs⟩

/-- A series that cannot be read is the first fault if none before it is one. -/
theorem FirstFault.of_series {lines : List (List Char)} {command times lower upper : List Char}
    (hlines : Lines lines command times lower upper) {i : Invocation}
    (hi : Invocation.parse (String.ofList command) = .ok i) {s : Section} (hs : s ∈ Section.series)
    (hbefore : ∀ r ∈ Section.series, r.index < s.index → (r.values? lines).isSome)
    {line : List Char} (hline : s.line? lines = some line) {e : ResultError}
    (h : series s line = .error e) : FirstFault lines e := by
  obtain ⟨f, hf, rfl⟩ := series_eq_error_iff.1 h
  refine .number hlines.isSome hlines.command hi hs hbefore ?_ hline hf
  rw [values?_of_line? hline, values?_eq_none_iff]
  exact ⟨f, hf⟩

/-- A fault that is named is the first one. -/
theorem FirstFault.of_parseSections {lines : List (List Char)} {e : ResultError}
    (h : parseSections lines = .error e) : FirstFault lines e := by
  rcases missing_or_exists_lines lines with
    ⟨s, ⟨hs, hmissing, hbefore⟩, hfault⟩ | ⟨command, times, lower, upper, hlines⟩
  · rw [hfault] at h
    cases h
    exact .missing hs hmissing hbefore
  · rw [hlines.parseSections_eq] at h
    rcases bind_eq_error_iff.1 h with hi | ⟨i, hi, h⟩
    · obtain ⟨f, hf, rfl⟩ := mapError_eq_error_iff.1 hi
      exact .invocation hlines.isSome hlines.command hf
    rw [mapError_eq_ok_iff] at hi
    rcases bind_eq_error_iff.1 h with hfault | ⟨ts, hts, h⟩
    · exact .of_series hlines hi (by decide) (by simp [Section.series, Section.index]) hlines.times hfault
    rw [series_eq_ok_iff, ← values?_of_line? hlines.times] at hts
    rcases bind_eq_error_iff.1 h with hfault | ⟨ls, hls, h⟩
    · exact .of_series hlines hi (by decide) (by simp [Section.series, Section.index, hts]) hlines.lower
        hfault
    rw [series_eq_ok_iff, ← values?_of_line? hlines.lower] at hls
    rcases bind_eq_error_iff.1 h with hfault | ⟨us, hus, h⟩
    · exact .of_series hlines hi (by decide) (by simp [Section.series, Section.index, hts, hls])
        hlines.upper hfault
    rw [series_eq_ok_iff, ← values?_of_line? hlines.upper] at hus
    split at h
    · rename_i hne
      cases h
      refine .lengths hlines.command hi hts hls hus fun heq => ?_
      simp [heq.1, heq.2] at hne
    · cases h

/-- The first fault is the one that is named. -/
theorem FirstFault.parseSections_eq {lines : List (List Char)} {e : ResultError}
    (h : FirstFault lines e) : parseSections lines = .error e := by
  cases h with
  | missing hs hmissing hbefore =>
    rw [parseSections, find?_required_eq_some_iff.2 ⟨hs, hmissing, hbefore⟩]
  | invocation hall hline he =>
    obtain ⟨command, times, lower, upper, hlines⟩ := exists_lines hall
    obtain rfl := Option.some.inj (hlines.command.symm.trans hline)
    rw [hlines.parseSections_eq, he]
    rfl
  | @number first line i s e hall hfirst hi hs hbefore hvalues hline he =>
    obtain ⟨command, times, lower, upper, hlines⟩ := exists_lines hall
    obtain rfl := Option.some.inj (hlines.command.symm.trans hfirst)
    have hfault : series s line = .error (.number s e) := series_eq_error_iff.2 ⟨e, he, rfl⟩
    rw [hlines.parseSections_eq, mapError_eq_ok_iff.2 hi, bind_ok]
    simp only [Section.series, List.mem_cons, List.not_mem_nil, or_false, forall_eq_or_imp,
      forall_eq] at hs hbefore
    rcases hs with rfl | rfl | rfl
    · obtain rfl := Option.some.inj (hlines.times.symm.trans hline)
      rw [hfault]
      rfl
    · obtain rfl := Option.some.inj (hlines.lower.symm.trans hline)
      obtain ⟨ts, hts⟩ := exists_series hlines.times (hbefore.1 (by decide))
      rw [hts, bind_ok, hfault]
      rfl
    · obtain rfl := Option.some.inj (hlines.upper.symm.trans hline)
      obtain ⟨ts, hts⟩ := exists_series hlines.times (hbefore.1 (by decide))
      obtain ⟨ls, hls⟩ := exists_series hlines.lower (hbefore.2.1 (by decide))
      rw [hts, bind_ok, hls, bind_ok, hfault]
      rfl
  | @lengths first i ts ls us hfirst hi hts hls hus hne =>
    obtain ⟨times, htimes, hts⟩ := Option.bind_eq_some_iff.1 hts
    obtain ⟨lower, hlower, hls⟩ := Option.bind_eq_some_iff.1 hls
    obtain ⟨upper, hupper, hus⟩ := Option.bind_eq_some_iff.1 hus
    have hlines : Lines lines first times lower upper := ⟨hfirst, htimes, hlower, hupper⟩
    rw [hlines.parseSections_eq, mapError_eq_ok_iff.2 hi, series_eq_ok_iff.2 hts,
      series_eq_ok_iff.2 hls, series_eq_ok_iff.2 hus]
    have hdiffer : ts.length ≠ ls.length ∨ ts.length ≠ us.length := by
      rw [Decidable.not_and_iff_not_or_not] at hne
      exact hne.imp Ne.symm Ne.symm
    simp only [bind_ok]
    exact if_pos hdiffer

/-- **The fault that is named** is the one that comes first. -/
theorem parseSections_eq_error_iff {lines : List (List Char)} {e : ResultError} :
    parseSections lines = .error e ↔ FirstFault lines e :=
  ⟨.of_parseSections, FirstFault.parseSections_eq⟩

/-! ## The whole text -/

/-- The trial of a text that says the given things and has no last section. -/
def trialOf (i : Invocation) (times lower upper : List Float) (iteration : Nat) : Trial Float where
  model := i.model
  axis := i.axis?
  times := times
  lower := lower
  upper := upper
  states := none
  missing := none
  status := .success
  iteration := iteration

/-- What is read from a text, section by section. -/
theorem value_parse_eq_bind (text : String) (mode : Trailing) (iteration : Nat) :
    (parse text mode iteration).value =
      (parseSections (Text.lines text.toList)).bind fun (i, times, lower, upper) =>
        (trailingValue mode (Section.trailing.line? (Text.lines text.toList))).map
          fun (states, missing) => { trialOf i times lower upper iteration with states, missing } := by
  rw [value_parse]
  cases parseSections (Text.lines text.toList) <;> rfl

/-- **A trial is read** if the required sections say it and the last one can be read. -/
theorem value_parse_eq_ok_iff {text : String} {mode : Trailing} {iteration : Nat} {t : Trial Float} :
    (parse text mode iteration).value = .ok t ↔
      ∃ i times lower upper states missing,
        Accepted (Text.lines text.toList) i times lower upper ∧
        trailingValue mode (Section.trailing.line? (Text.lines text.toList)) = .ok (states, missing) ∧
        t = { trialOf i times lower upper iteration with states, missing } := by
  rw [value_parse_eq_bind]
  constructor
  · intro h
    obtain ⟨⟨i, times, lower, upper⟩, hsections, h⟩ := bind_eq_ok_iff.1 h
    obtain ⟨⟨states, missing⟩, htrailing, rfl⟩ := map_eq_ok_iff.1 h
    exact ⟨i, times, lower, upper, states, missing, parseSections_eq_ok_iff.1 hsections, htrailing, rfl⟩
  · rintro ⟨i, times, lower, upper, states, missing, hsections, htrailing, rfl⟩
    refine bind_eq_ok_iff.2 ⟨_, parseSections_eq_ok_iff.2 hsections, ?_⟩
    exact map_eq_ok_iff.2 ⟨_, htrailing, rfl⟩

/-- A text is refused for its first fault in the required sections, or else for its last section. -/
theorem value_parse_eq_error_iff {text : String} {mode : Trailing} {iteration : Nat} {e : ResultError} :
    (parse text mode iteration).value = .error e ↔
      FirstFault (Text.lines text.toList) e ∨
      (∃ i times lower upper, Accepted (Text.lines text.toList) i times lower upper) ∧
        trailingValue mode (Section.trailing.line? (Text.lines text.toList)) = .error e := by
  rw [value_parse_eq_bind, ← parseSections_eq_error_iff]
  constructor
  · intro h
    rcases bind_eq_error_iff.1 h with hsections | ⟨⟨i, times, lower, upper⟩, hsections, h⟩
    · exact .inl hsections
    · exact .inr ⟨⟨i, times, lower, upper, parseSections_eq_ok_iff.1 hsections⟩, map_eq_error_iff.1 h⟩
  · rintro (hsections | ⟨⟨i, times, lower, upper, hsections⟩, htrailing⟩)
    · exact bind_eq_error_iff.2 (.inl hsections)
    · exact bind_eq_error_iff.2
        (.inr ⟨_, parseSections_eq_ok_iff.2 hsections, map_eq_error_iff.2 htrailing⟩)

/-- Without a last section, nothing is read from it. -/
theorem trailingValue_none (mode : Trailing) : trailingValue mode none = .ok (none, none) := by
  cases mode <;> rfl

/-- What the last section is refused for is told with its name. -/
theorem exists_number_of_trailingValue {mode : Trailing} {line : Option (List Char)} {e : ResultError}
    (h : trailingValue mode line = .error e) : ∃ f, e = .number .trailing f := by
  cases line with
  | none => cases mode <;> cases h
  | some line =>
    cases mode <;>
    · obtain ⟨f, -, rfl⟩ := mapError_eq_error_iff.1 h
      exact ⟨f, rfl⟩

/-- Lines are read by their numbers. -/
theorem parse_congr {text other : String}
    (h : (Text.lines other.toList).take 5 = (Text.lines text.toList).take 5) (mode : Trailing)
    (iteration : Nat) : parse other mode iteration = parse text mode iteration := by
  have hget : ∀ s : Section, (Text.lines other.toList)[s.index]? = (Text.lines text.toList)[s.index]? := by
    intro s
    have hless : s.index < 5 := by cases s <;> decide
    rw [← List.getElem?_take_of_lt hless, h, List.getElem?_take_of_lt hless]
  have hline : ∀ s : Section, s.line? (Text.lines other.toList) = s.line? (Text.lines text.toList) :=
    fun s => congrArg (Option.filter fun line => !Text.isBlankText line) (hget s)
  simp only [parse, parseSections, hget, hline]

/-- What is read from a text, and how far its later lines and the meaning of its last section matter. -/
structure ReadsExactly (text : String) (mode : Trailing) (iteration : Nat) : Prop where
  /-- A text without a last section is read if its required sections say something, and they say what is
  read. -/
  accepted : Section.trailing.line? (Text.lines text.toList) = none → ∀ t,
    (parse text mode iteration).value = .ok t ↔
      ∃ i times lower upper, Accepted (Text.lines text.toList) i times lower upper ∧
        t = trialOf i times lower upper iteration
  /-- Otherwise its first fault is told. -/
  refused : Section.trailing.line? (Text.lines text.toList) = none → ∀ e,
    (parse text mode iteration).value = .error e ↔ FirstFault (Text.lines text.toList) e
  /-- Lines after the fifth do not matter. -/
  later : ∀ other : String,
    (Text.lines other.toList).take 5 = (Text.lines text.toList).take 5 →
      parse other mode iteration = parse text mode iteration
  /-- The meaning of the last section does not matter if there is none. -/
  without : Section.trailing.line? (Text.lines text.toList) = none → ∀ mode',
    parse text mode' iteration = parse text mode iteration
  /-- If there is one, only what is read from it depends on its meaning. -/
  within : ∀ mode' t t', (parse text mode iteration).value = .ok t →
    (parse text mode' iteration).value = .ok t' →
      t' = { t with states := t'.states, missing := t'.missing }
  /-- What is said of the other sections does not depend on it. -/
  before : ∀ mode' e, (parse text mode iteration).value = .error e →
    (∀ f, e ≠ .number .trailing f) → (parse text mode' iteration).value = .error e

/-- **A text result is read exactly.** -/
theorem reads_exactly (text : String) (mode : Trailing) (iteration : Nat) :
    ReadsExactly text mode iteration where
  accepted hnone t := by
    rw [value_parse_eq_ok_iff, hnone, trailingValue_none]
    constructor
    · rintro ⟨i, times, lower, upper, states, missing, hsections, htrailing, rfl⟩
      cases htrailing
      exact ⟨i, times, lower, upper, hsections, rfl⟩
    · rintro ⟨i, times, lower, upper, hsections, rfl⟩
      exact ⟨i, times, lower, upper, none, none, hsections, rfl, rfl⟩
  refused hnone e := by
    rw [value_parse_eq_error_iff, hnone, trailingValue_none]
    simp
  later _ h := parse_congr h mode iteration
  without hnone mode' := by
    simp only [parse, hnone, trailingValue_none]
  within mode' t t' h h' := by
    obtain ⟨i, times, lower, upper, states, missing, hsections, -, rfl⟩ := value_parse_eq_ok_iff.1 h
    obtain ⟨i', times', lower', upper', states', missing', hsections', -, rfl⟩ :=
      value_parse_eq_ok_iff.1 h'
    have hsame := (parseSections_eq_ok_iff.2 hsections).symm.trans (parseSections_eq_ok_iff.2 hsections')
    cases hsame
    rfl
  before mode' e h hother := by
    rcases value_parse_eq_error_iff.1 h with hfault | ⟨-, htrailing⟩
    · exact value_parse_eq_error_iff.2 (.inl hfault)
    · obtain ⟨f, rfl⟩ := exists_number_of_trailingValue htrailing
      exact absurd rfl (hother f)

/-- A text whose numbers are written and separated in several ways, and whose fifth line is blank. -/
def sampleText : String := "-m toy.prism --pMin 0.5\r\n1000 2000\n-0 .5e0\n1\t+1E0 \n \nmore\n"

theorem line?_sampleText : Section.trailing.line? (Text.lines sampleText.toList) = none := by decide

theorem exists_accepted_sampleText :
    ∃ i times lower upper, Accepted (Text.lines sampleText.toList) i times lower upper := by
  have hcommand : Section.invocation.line? (Text.lines sampleText.toList) =
      some "-m toy.prism --pMin 0.5".toList := by decide
  exact exists_accepted hcommand (by decide) (by decide) (by decide)

theorem exists_parse_sampleText (mode : Trailing) (iteration : Nat) :
    ∃ t, (parse sampleText mode iteration).value = .ok t := by
  obtain ⟨i, times, lower, upper, hsections⟩ := exists_accepted_sampleText
  have htrailing : trailingValue mode (Section.trailing.line? (Text.lines sampleText.toList)) =
      .ok (none, none) := by
    rw [line?_sampleText]
    rfl
  exact ⟨_, value_parse_eq_ok_iff.2 ⟨i, times, lower, upper, none, none, hsections, htrailing, rfl⟩⟩

/-- It is read, and so are both of its samples. -/
theorem reads_exactly_sampleText :
    Section.trailing.line? (Text.lines sampleText.toList) = none ∧
    ∃ t, (parse sampleText .states 3).value = .ok t ∧ t.times.length = 2 ∧ t.iteration = 3 := by
  obtain ⟨i, times, lower, upper, hsections⟩ := exists_accepted_sampleText
  have hread := ((reads_exactly sampleText .states 3).accepted line?_sampleText _).2
    ⟨i, times, lower, upper, hsections, rfl⟩
  have hcount : Section.times.wordCount? (Text.lines sampleText.toList) = some 2 := by decide
  rw [Section.wordCount?_of_values? hsections.timesLine] at hcount
  exact ⟨line?_sampleText, _, hread, Option.some.inj hcount, rfl⟩

end TextResult
end CheckerTrials
