import CheckerTrials.Text.Split
import CheckerTrials.Text.Utf8
import Mathlib.Data.String.Basic
import Mathlib.Tactic.SplitIfs

/-!
# Looking for a text in a log

A log is bytes, and it is searched for a text after `decodeLossy` has read it, whatever the bytes are.  Of the bytes of
a character the decoder makes that character (`decodeLossyFrom_encode`), and what it makes of anything else is
`replacement` (`exists_of_decodeLossyFrom_eq_cons`).  So unless that character is looked for, a text is found exactly
where its bytes stand (`infix_decodeLossy_iff`).

The decoder takes the bytes of a character one by one.  `Completes` says which bytes complete a character that was
begun, and these are the bytes of UTF-8 (`encode_of_completes`, `exists_completes_of_encode`).
-/

set_option autoImplicit false

namespace CheckerTrials.Text

variable {b : UInt8} {shape : Shape} {least greatest further bits n : Nat} {bs tail : List UInt8} {c : Char}
  {cs needle s : List Char}

/-- A text occurs in another one if it is a part of it. -/
theorem occurs_iff : occurs needle s = true ↔ needle <:+: s := by
  induction s with
  | nil => rw [occurs, List.isEmpty_iff, List.infix_nil]
  | cons c rest ih => rw [occurs, Bool.or_eq_true, List.isPrefixOf_iff_prefix, ih, List.infix_cons_iff]

/-! ## Steps of the decoder -/

/-- The bits in the first of several bytes. -/
def firstBits (b : Nat) : Nat := if b < 0xE0 then b - 0xC0 else if b < 0xF0 then b - 0xE0 else b - 0xF0

/-- The bits read so far with those of one more byte. -/
def moreBits (bits : Nat) (b : UInt8) : Nat := bits * 64 + (b.toNat - 0x80)

theorem decodeLossyFrom_ascii (rest : List UInt8) (h : b.toNat < 0x80) :
    decodeLossyFrom none (b :: rest) = Char.ofNat b.toNat :: decodeLossyFrom none rest := by
  rw [decodeLossyFrom]
  dsimp only
  rw [if_pos h]

theorem decodeLossyFrom_first (rest : List UInt8) (h : ¬ b.toNat < 0x80)
    (hshape : Shape.ofFirst? b.toNat = some shape) :
    decodeLossyFrom none (b :: rest) = decodeLossyFrom (some (shape, firstBits b.toNat)) rest := by
  rw [decodeLossyFrom]
  dsimp only
  rw [if_neg h, hshape]
  rfl

theorem decodeLossyFrom_stray (rest : List UInt8) (h : ¬ b.toNat < 0x80) (hshape : Shape.ofFirst? b.toNat = none) :
    decodeLossyFrom none (b :: rest) = replacement :: decodeLossyFrom none rest := by
  rw [decodeLossyFrom]
  dsimp only
  rw [if_neg h, hshape]

theorem decodeLossyFrom_last (rest : List UInt8) (h : least ≤ b.toNat ∧ b.toNat ≤ greatest) :
    decodeLossyFrom (some (⟨least, greatest, 0⟩, bits)) (b :: rest) =
      Char.ofNat (moreBits bits b) :: decodeLossyFrom none rest := by
  rw [decodeLossyFrom]
  dsimp only
  rw [if_pos h]
  rfl

theorem decodeLossyFrom_next (rest : List UInt8) (h : least ≤ b.toNat ∧ b.toNat ≤ greatest) :
    decodeLossyFrom (some (⟨least, greatest, further + 1⟩, bits)) (b :: rest) =
      decodeLossyFrom (some (⟨0x80, 0xBF, further⟩, moreBits bits b)) rest := by
  rw [decodeLossyFrom]
  dsimp only
  rw [if_pos h]
  rfl

/-- A byte that continues nothing begins anew. -/
theorem decodeLossyFrom_break (rest : List UInt8) (h : ¬ (least ≤ b.toNat ∧ b.toNat ≤ greatest)) :
    decodeLossyFrom (some (⟨least, greatest, further⟩, bits)) (b :: rest) =
      replacement :: decodeLossyFrom none (b :: rest) := by
  rw [decodeLossyFrom, decodeLossyFrom]
  dsimp only
  rw [if_neg h]

/-! ## The bytes of a character -/

/-- **Bytes complete a character** that was begun, and give its code. -/
inductive Completes : Shape → Nat → List UInt8 → Nat → Prop
  /-- The last byte. -/
  | last {least greatest bits : Nat} {b : UInt8} (h : least ≤ b.toNat ∧ b.toNat ≤ greatest) :
    Completes ⟨least, greatest, 0⟩ bits [b] (moreBits bits b)
  /-- A byte before others. -/
  | next {least greatest further bits n : Nat} {b : UInt8} {tail : List UInt8}
    (h : least ≤ b.toNat ∧ b.toNat ≤ greatest) (hmore : Completes ⟨0x80, 0xBF, further⟩ (moreBits bits b) tail n) :
    Completes ⟨least, greatest, further + 1⟩ bits (b :: tail) n

/-- What was begun is read when it is complete. -/
theorem decodeLossyFrom_of_completes (h : Completes shape bits tail n) (rest : List UInt8) :
    decodeLossyFrom (some (shape, bits)) (tail ++ rest) = Char.ofNat n :: decodeLossyFrom none rest := by
  induction h with
  | last h => exact decodeLossyFrom_last rest h
  | next h _ ih => rw [List.cons_append, decodeLossyFrom_next _ h, ih]

/-- What a first byte lets follow: the second byte is bounded so that the code is no shorter one, no surrogate and not
too great. -/
theorem ofFirst?_spec {b : Nat} (h : Shape.ofFirst? b = some ⟨least, greatest, further⟩) :
    0x80 ≤ least ∧ greatest ≤ 0xBF ∧
      (further = 0 ∧ 0xC2 ≤ b ∧ b ≤ 0xDF ∨
        further = 1 ∧ 0xE0 ≤ b ∧ b ≤ 0xEF ∧ (b = 0xE0 → 0xA0 ≤ least) ∧ (b = 0xED → greatest ≤ 0x9F) ∨
        further = 2 ∧ 0xF0 ≤ b ∧ b ≤ 0xF4 ∧ (b = 0xF0 → 0x90 ≤ least) ∧ (b = 0xF4 → greatest ≤ 0x8F)) := by
  unfold Shape.ofFirst? at h
  split_ifs at h <;> cases h <;> omega

/-- Every second byte with which the code is none of these may follow. -/
theorem exists_ofFirst? {b : Nat} (h : further = 0 ∧ 0xC2 ≤ b ∧ b ≤ 0xDF ∨ further = 1 ∧ 0xE0 ≤ b ∧ b ≤ 0xEF ∨
      further = 2 ∧ 0xF0 ≤ b ∧ b ≤ 0xF4) {x : Nat} (hx : 0x80 ≤ x ∧ x ≤ 0xBF)
    (hleast : (b = 0xE0 → 0xA0 ≤ x) ∧ (b = 0xF0 → 0x90 ≤ x))
    (hgreatest : (b = 0xED → x ≤ 0x9F) ∧ (b = 0xF4 → x ≤ 0x8F)) :
    ∃ least greatest, Shape.ofFirst? b = some ⟨least, greatest, further⟩ ∧ least ≤ x ∧ x ≤ greatest := by
  unfold Shape.ofFirst?
  obtain ⟨rfl, hb⟩ | ⟨rfl, hb⟩ | ⟨rfl, hb⟩ := h <;> split_ifs <;> first | omega | exact ⟨_, _, rfl, by omega⟩

/-! ## Characters from bytes -/

/-- The bytes of the character with a code. -/
theorem encode_ofNat (h : n.isValidChar) : String.utf8EncodeChar (Char.ofNat n) =
    if n ≤ 0x7F then [UInt8.ofNat n]
    else if n ≤ 0x7FF then [UInt8.ofNat (n / 64 % 32 + 0xC0), UInt8.ofNat (n % 64 + 0x80)]
    else if n ≤ 0xFFFF then
      [UInt8.ofNat (n / 4096 % 16 + 0xE0), UInt8.ofNat (n / 64 % 64 + 0x80), UInt8.ofNat (n % 64 + 0x80)]
    else [UInt8.ofNat (n / 262144 % 8 + 0xF0), UInt8.ofNat (n / 4096 % 64 + 0x80), UInt8.ofNat (n / 64 % 64 + 0x80),
      UInt8.ofNat (n % 64 + 0x80)] := by
  have hcode : (Char.ofNat n).val.toNat = n := by
    rw [Char.ofNat, dif_pos h]
    rfl
  unfold String.utf8EncodeChar
  rw [hcode]

/-- **The bytes that complete a character** are its bytes. -/
theorem encode_of_completes (hshape : Shape.ofFirst? b.toNat = some ⟨least, greatest, further⟩)
    (h : Completes ⟨least, greatest, further⟩ (firstBits b.toNat) tail n) :
    String.utf8EncodeChar (Char.ofNat n) = b :: tail := by
  obtain ⟨hleast, hgreatest, ⟨rfl, hb⟩ | ⟨rfl, hb⟩ | ⟨rfl, hb⟩⟩ := ofFirst?_spec hshape
  · rw [firstBits, if_pos (by omega)] at h
    cases h with
    | @last _ _ _ x =>
      unfold moreBits
      rw [encode_ofNat (by unfold Nat.isValidChar; omega), if_neg (by omega), if_pos (by omega)]
      simp only [List.cons.injEq, ← UInt8.toNat_inj, UInt8.toNat_ofNat', and_true]
      omega
  · rw [firstBits, if_neg (by omega), if_pos (by omega)] at h
    cases h with
    | @next _ _ _ _ _ x _ _ hmore =>
      cases hmore with
      | @last _ _ _ y =>
        unfold moreBits
        rw [encode_ofNat (by unfold Nat.isValidChar; omega), if_neg (by omega), if_neg (by omega), if_pos (by omega)]
        simp only [List.cons.injEq, ← UInt8.toNat_inj, UInt8.toNat_ofNat', and_true]
        omega
  · rw [firstBits, if_neg (by omega), if_neg (by omega)] at h
    cases h with
    | @next _ _ _ _ _ x _ _ hmore =>
      cases hmore with
      | @next _ _ _ _ _ y _ _ hmore =>
        cases hmore with
        | @last _ _ _ z =>
          unfold moreBits
          rw [encode_ofNat (by unfold Nat.isValidChar; omega), if_neg (by omega), if_neg (by omega), if_neg (by omega)]
          simp only [List.cons.injEq, ← UInt8.toNat_inj, UInt8.toNat_ofNat', and_true]
          omega

/-! ## Bytes from characters -/

theorem toNat_ofNat_of_lt {k : Nat} (h : k < 256) : (UInt8.ofNat k).toNat = k := by
  rw [UInt8.toNat_ofNat', Nat.mod_eq_of_lt h]

theorem completes_two {b x : UInt8} (hn : 0x80 ≤ n ∧ n ≤ 0x7FF) (hb : b = UInt8.ofNat (n / 64 % 32 + 0xC0))
    (hx : x = UInt8.ofNat (n % 64 + 0x80)) :
    ∃ shape, Shape.ofFirst? b.toNat = some shape ∧ Completes shape (firstBits b.toNat) [x] n := by
  have hb : b.toNat = n / 64 % 32 + 0xC0 := hb ▸ toNat_ofNat_of_lt (by omega)
  have hx : x.toNat = n % 64 + 0x80 := hx ▸ toNat_ofNat_of_lt (by omega)
  obtain ⟨least, greatest, hshape, hsecond⟩ := @exists_ofFirst? 0 b.toNat (by omega) x.toNat (by omega) (by omega)
    (by omega)
  have hcode : n = moreBits (firstBits b.toNat) x := by
    unfold firstBits moreBits
    split_ifs <;> omega
  exact ⟨_, hshape, hcode ▸ .last hsecond⟩

theorem completes_three {b x y : UInt8} (hn : 0x800 ≤ n ∧ n ≤ 0xFFFF) (hvalid : n.isValidChar)
    (hb : b = UInt8.ofNat (n / 4096 % 16 + 0xE0)) (hx : x = UInt8.ofNat (n / 64 % 64 + 0x80))
    (hy : y = UInt8.ofNat (n % 64 + 0x80)) :
    ∃ shape, Shape.ofFirst? b.toNat = some shape ∧ Completes shape (firstBits b.toNat) [x, y] n := by
  unfold Nat.isValidChar at hvalid
  have hb : b.toNat = n / 4096 % 16 + 0xE0 := hb ▸ toNat_ofNat_of_lt (by omega)
  have hx : x.toNat = n / 64 % 64 + 0x80 := hx ▸ toNat_ofNat_of_lt (by omega)
  have hy : y.toNat = n % 64 + 0x80 := hy ▸ toNat_ofNat_of_lt (by omega)
  obtain ⟨least, greatest, hshape, hsecond⟩ := @exists_ofFirst? 1 b.toNat (by omega) x.toNat (by omega) (by omega)
    (by omega)
  have hcode : n = moreBits (moreBits (firstBits b.toNat) x) y := by
    unfold firstBits moreBits
    split_ifs <;> omega
  exact ⟨_, hshape, hcode ▸ .next hsecond (.last (by omega))⟩

theorem completes_four {b x y z : UInt8} (hn : 0x10000 ≤ n) (hvalid : n.isValidChar)
    (hb : b = UInt8.ofNat (n / 262144 % 8 + 0xF0)) (hx : x = UInt8.ofNat (n / 4096 % 64 + 0x80))
    (hy : y = UInt8.ofNat (n / 64 % 64 + 0x80)) (hz : z = UInt8.ofNat (n % 64 + 0x80)) :
    ∃ shape, Shape.ofFirst? b.toNat = some shape ∧ Completes shape (firstBits b.toNat) [x, y, z] n := by
  unfold Nat.isValidChar at hvalid
  have hb : b.toNat = n / 262144 % 8 + 0xF0 := hb ▸ toNat_ofNat_of_lt (by omega)
  have hx : x.toNat = n / 4096 % 64 + 0x80 := hx ▸ toNat_ofNat_of_lt (by omega)
  have hy : y.toNat = n / 64 % 64 + 0x80 := hy ▸ toNat_ofNat_of_lt (by omega)
  have hz : z.toNat = n % 64 + 0x80 := hz ▸ toNat_ofNat_of_lt (by omega)
  obtain ⟨least, greatest, hshape, hsecond⟩ := @exists_ofFirst? 2 b.toNat (by omega) x.toNat (by omega) (by omega)
    (by omega)
  have hcode : n = moreBits (moreBits (moreBits (firstBits b.toNat) x) y) z := by
    unfold firstBits moreBits
    split_ifs <;> omega
  exact ⟨_, hshape, hcode ▸ .next hsecond (.next (by omega) (.last (by omega)))⟩

/-- **The bytes of a character** complete it. -/
theorem exists_completes_of_encode (h : ¬ c.toNat < 0x80) : ∃ b shape tail, String.utf8EncodeChar c = b :: tail ∧
    Shape.ofFirst? b.toNat = some shape ∧ Completes shape (firstBits b.toNat) tail c.toNat := by
  have hvalid : c.toNat.isValidChar := c.valid
  have hcode := encode_ofNat hvalid
  rw [Char.ofNat_toNat, if_neg (by omega)] at hcode
  split_ifs at hcode with htwo hthree
  · obtain ⟨shape, hshape, hcompletes⟩ := completes_two (n := c.toNat) (by omega) rfl rfl
    exact ⟨_, shape, _, hcode, hshape, hcompletes⟩
  · obtain ⟨shape, hshape, hcompletes⟩ := completes_three (n := c.toNat) (by omega) hvalid rfl rfl rfl
    exact ⟨_, shape, _, hcode, hshape, hcompletes⟩
  · obtain ⟨shape, hshape, hcompletes⟩ := completes_four (n := c.toNat) (by omega) hvalid rfl rfl rfl rfl
    exact ⟨_, shape, _, hcode, hshape, hcompletes⟩

/-! ## Reading characters -/

/-- **Of the bytes of a character** the decoder makes that character. -/
theorem decodeLossyFrom_encode (c : Char) (rest : List UInt8) :
    decodeLossyFrom none (String.utf8EncodeChar c ++ rest) = c :: decodeLossyFrom none rest := by
  by_cases h : c.toNat < 0x80
  · have hcode := encode_ofNat (n := c.toNat) c.valid
    rw [Char.ofNat_toNat, if_pos (by omega)] at hcode
    have hbyte : (UInt8.ofNat c.toNat).toNat = c.toNat := toNat_ofNat_of_lt (by omega)
    rw [hcode, List.singleton_append, decodeLossyFrom_ascii rest (by rw [hbyte]; exact h), hbyte, Char.ofNat_toNat]
  · obtain ⟨b, ⟨least, greatest, further⟩, tail, hcode, hshape, hcompletes⟩ := exists_completes_of_encode h
    have hfirst : ¬ b.toNat < 0x80 := by
      have hb := ofFirst?_spec hshape
      omega
    rw [hcode, List.cons_append, decodeLossyFrom_first _ hfirst hshape, decodeLossyFrom_of_completes hcompletes,
      Char.ofNat_toNat]

/-- What is read after a character was begun is that character, or else a replacement. -/
theorem exists_of_decodeLossyFrom_some (h : decodeLossyFrom (some (shape, bits)) bs = c :: cs) :
    ∃ tail rest, bs = tail ++ rest ∧ cs = decodeLossyFrom none rest ∧
      (c = replacement ∨ ∃ n, Completes shape bits tail n ∧ c = Char.ofNat n) := by
  induction bs generalizing shape bits with
  | nil =>
    obtain ⟨rfl, rfl⟩ := List.cons.inj h
    exact ⟨[], [], rfl, rfl, .inl rfl⟩
  | cons b bs ih =>
    obtain ⟨least, greatest, further⟩ := shape
    by_cases hb : least ≤ b.toNat ∧ b.toNat ≤ greatest
    · cases further with
      | zero =>
        rw [decodeLossyFrom_last bs hb] at h
        obtain ⟨rfl, rfl⟩ := List.cons.inj h
        exact ⟨[b], bs, rfl, rfl, .inr ⟨_, .last hb, rfl⟩⟩
      | succ further =>
        rw [decodeLossyFrom_next bs hb] at h
        obtain ⟨tail, rest, rfl, rfl, hc⟩ := ih h
        refine ⟨b :: tail, rest, rfl, rfl, hc.imp_right ?_⟩
        rintro ⟨n, hcompletes, rfl⟩
        exact ⟨n, .next hb hcompletes, rfl⟩
    · rw [decodeLossyFrom_break bs hb] at h
      obtain ⟨rfl, rfl⟩ := List.cons.inj h
      exact ⟨[], b :: bs, rfl, rfl, .inl rfl⟩

/-- **Every character that is read** but a replacement stands there with its bytes. -/
theorem exists_of_decodeLossyFrom_eq_cons (h : decodeLossyFrom none bs = c :: cs) :
    ∃ front rest, bs = front ++ rest ∧ cs = decodeLossyFrom none rest ∧
      (c = replacement ∨ front = String.utf8EncodeChar c) := by
  cases bs with
  | nil => cases h
  | cons b bs =>
    by_cases hb : b.toNat < 0x80
    · rw [decodeLossyFrom_ascii bs hb] at h
      obtain ⟨rfl, rfl⟩ := List.cons.inj h
      refine ⟨[b], bs, rfl, rfl, .inr ?_⟩
      rw [encode_ofNat (by unfold Nat.isValidChar; omega), if_pos (by omega), UInt8.ofNat_toNat]
    · cases hshape : Shape.ofFirst? b.toNat with
      | none =>
        rw [decodeLossyFrom_stray bs hb hshape] at h
        obtain ⟨rfl, rfl⟩ := List.cons.inj h
        exact ⟨[b], bs, rfl, rfl, .inl rfl⟩
      | some shape =>
        rw [decodeLossyFrom_first bs hb hshape] at h
        obtain ⟨tail, rest, rfl, rfl, hc⟩ := exists_of_decodeLossyFrom_some h
        refine ⟨b :: tail, rest, rfl, rfl, hc.imp_right ?_⟩
        rintro ⟨n, hcompletes, rfl⟩
        exact (encode_of_completes hshape hcompletes).symm

/-- The bytes of a text are read as the text. -/
theorem decodeLossyFrom_flatMap (cs : List Char) (rest : List UInt8) :
    decodeLossyFrom none (cs.flatMap String.utf8EncodeChar ++ rest) = cs ++ decodeLossyFrom none rest := by
  induction cs with
  | nil => rfl
  | cons c cs ih => rw [List.flatMap_cons, List.append_assoc, decodeLossyFrom_encode, ih, List.cons_append]

/-! ## Finding a text -/

/-- What may have been begun: only bytes that begin no character can continue it. -/
inductive Begun : Option (Shape × Nat) → Prop
  /-- Nothing. -/
  | none : Begun none
  /-- A character. -/
  | some {least greatest further bits : Nat} (hleast : 0x80 ≤ least) (hgreatest : greatest ≤ 0xBF) :
    Begun (some (⟨least, greatest, further⟩, bits))

/-- The first byte of a character is none that continues one. -/
theorem exists_encode_eq_cons (c : Char) :
    ∃ b tail, String.utf8EncodeChar c = b :: tail ∧ ¬ (0x80 ≤ b.toNat ∧ b.toNat ≤ 0xBF) := by
  by_cases h : c.toNat < 0x80
  · have hcode := encode_ofNat (n := c.toNat) c.valid
    rw [Char.ofNat_toNat, if_pos (by omega)] at hcode
    have hbyte : (UInt8.ofNat c.toNat).toNat = c.toNat := toNat_ofNat_of_lt (by omega)
    exact ⟨_, _, hcode, by omega⟩
  · obtain ⟨b, ⟨least, greatest, further⟩, tail, hcode, hshape, -⟩ := exists_completes_of_encode h
    have hb := ofFirst?_spec hshape
    exact ⟨b, tail, hcode, by omega⟩

/-- A character is read after whatever was begun. -/
theorem exists_decodeLossyFrom_encode {pending : Option (Shape × Nat)} (h : Begun pending) (c : Char)
    (rest : List UInt8) :
    ∃ front, decodeLossyFrom pending (String.utf8EncodeChar c ++ rest) = front ++ c :: decodeLossyFrom none rest := by
  cases h with
  | none => exact ⟨[], decodeLossyFrom_encode c rest⟩
  | @some least greatest further bits hleast hgreatest =>
    obtain ⟨b, tail, hcode, hb⟩ := exists_encode_eq_cons c
    have hbreak : decodeLossyFrom (some (⟨least, greatest, further⟩, bits)) (String.utf8EncodeChar c ++ rest) =
        replacement :: decodeLossyFrom none (String.utf8EncodeChar c ++ rest) := by
      rw [hcode, List.cons_append, decodeLossyFrom_break _ (by omega)]
    exact ⟨[replacement], by rw [hbreak, decodeLossyFrom_encode, List.singleton_append]⟩

/-- **A text is found** where its bytes stand. -/
theorem infix_decodeLossyFrom {pending : Option (Shape × Nat)} (h : Begun pending) (hcs : cs ≠ [])
    (bs rest : List UInt8) :
    cs <:+: decodeLossyFrom pending (bs ++ (cs.flatMap String.utf8EncodeChar ++ rest)) := by
  induction bs generalizing pending with
  | nil =>
    obtain ⟨c, others, rfl⟩ := List.exists_cons_of_ne_nil hcs
    obtain ⟨front, hfront⟩ := exists_decodeLossyFrom_encode h c (others.flatMap String.utf8EncodeChar ++ rest)
    rw [List.nil_append, List.flatMap_cons, List.append_assoc, hfront, decodeLossyFrom_flatMap]
    exact ⟨front, decodeLossyFrom none rest, by rw [List.append_assoc, List.cons_append]⟩
  | cons b bs ih =>
    have hnone : cs <:+: decodeLossyFrom none (b :: (bs ++ (cs.flatMap String.utf8EncodeChar ++ rest))) := by
      by_cases hb : b.toNat < 0x80
      · rw [decodeLossyFrom_ascii _ hb]
        exact List.infix_cons (ih .none)
      · cases hshape : Shape.ofFirst? b.toNat with
        | none =>
          rw [decodeLossyFrom_stray _ hb hshape]
          exact List.infix_cons (ih .none)
        | some shape =>
          obtain ⟨least, greatest, further⟩ := shape
          rw [decodeLossyFrom_first _ hb hshape]
          exact ih (.some (ofFirst?_spec hshape).1 (ofFirst?_spec hshape).2.1)
    rw [List.cons_append]
    cases h with
    | none => exact hnone
    | @some least greatest further bits hleast hgreatest =>
      by_cases hb : least ≤ b.toNat ∧ b.toNat ≤ greatest
      · cases further with
        | zero =>
          rw [decodeLossyFrom_last _ hb]
          exact List.infix_cons (ih .none)
        | succ further =>
          rw [decodeLossyFrom_next _ hb]
          exact ih (.some (Nat.le_refl _) (Nat.le_refl _))
      · rw [decodeLossyFrom_break _ hb]
        exact List.infix_cons hnone

/-- A text at the front is there with its bytes. -/
theorem exists_of_decodeLossyFrom_eq_append {after : List Char} (hcs : replacement ∉ cs)
    (h : decodeLossyFrom none bs = cs ++ after) : ∃ rest, bs = cs.flatMap String.utf8EncodeChar ++ rest := by
  induction cs generalizing bs with
  | nil => exact ⟨bs, rfl⟩
  | cons c cs ih =>
    obtain ⟨hc, hcs⟩ := not_or.1 (mt List.mem_cons.2 hcs)
    obtain ⟨front, rest, rfl, hrest, hfront⟩ := exists_of_decodeLossyFrom_eq_cons h
    obtain ⟨rest', rfl⟩ := ih hcs hrest.symm
    obtain rfl := hfront.resolve_left (Ne.symm hc)
    exact ⟨rest', by rw [List.flatMap_cons, List.append_assoc]⟩

/-- **What is found** is there with its bytes, unless it holds replacements. -/
theorem infix_of_infix_decodeLossyFrom (hcs : replacement ∉ cs) (h : cs <:+: decodeLossyFrom none bs) :
    cs.flatMap String.utf8EncodeChar <:+: bs := by
  obtain ⟨before, after, h⟩ := h
  rw [List.append_assoc] at h
  induction before generalizing bs with
  | nil =>
    obtain ⟨rest, rfl⟩ := exists_of_decodeLossyFrom_eq_append hcs h.symm
    exact (List.prefix_append _ rest).isInfix
  | cons c before ih =>
    obtain ⟨front, rest, rfl, hrest, -⟩ := exists_of_decodeLossyFrom_eq_cons h.symm
    exact (ih hrest).trans (List.suffix_append front rest).isInfix

/-- **A text is found in a log** exactly where its bytes stand, whatever else the log holds, unless it is replacements
that are looked for. -/
theorem infix_decodeLossy_iff (hneedle : replacement ∉ needle) (log : ByteArray) :
    needle <:+: decodeLossy log ↔ needle.flatMap String.utf8EncodeChar <:+: log.toList := by
  constructor
  · exact infix_of_infix_decodeLossyFrom hneedle
  · rintro ⟨before, after, h⟩
    by_cases hne : needle = []
    · rw [hne]
      exact List.nil_infix
    · rw [decodeLossy, ← h, List.append_assoc]
      exact infix_decodeLossyFrom .none hne before after

/-- Stray bytes and a character that is cut off do not hide a text between them. -/
example : decodeLossyFrom none [0xFF, 0xC3, 0x4F, 0x4F, 0x4D, 0xE2, 0x82] =
    [replacement, replacement, 'O', 'O', 'M', replacement] := by
  decide

end CheckerTrials.Text
