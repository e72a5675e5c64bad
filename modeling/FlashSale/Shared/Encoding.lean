import FlashSale.Library.JsonRoundTrip
import FlashSale.Shared.Consumer

/-!
# The bytes of a text

`encode` is `str.encode("utf-8")`. The decoder of the consumer accepts a byte
sequence exactly if it is the encoding of a text, and then gives this text
(`decode_eq_some_iff`): a character is read from its one encoding, and overlong
forms, surrogates and cut sequences are refused.
-/

namespace FlashSale

namespace Consumer

/-- `text.encode("utf-8")`. -/
def encode (text : List Char) : List UInt8 := text.flatMap String.utf8EncodeChar

/-! ## From characters to bytes -/

/-- The byte of a number below 256. -/
theorem toNat_byte {n : ℕ} (h : n < 256) : (UInt8.ofNat n).toNat = n := by
  rw [UInt8.toNat_ofNat']
  exact Nat.mod_eq_of_lt h

theorem le_byte_iff {a b : UInt8} : a ≤ b ↔ a.toNat ≤ b.toNat := UInt8.le_iff_toNat_le

theorem lt_byte_iff {a b : UInt8} : a < b ↔ a.toNat < b.toNat := UInt8.lt_iff_toNat_lt

theorem continuation_iff {b : UInt8} : continuation b = true ↔ 0x80 ≤ b.toNat ∧ b.toNat ≤ 0xBF := by
  rw [continuation, decide_eq_true_iff, le_byte_iff, le_byte_iff]
  rfl

theorem decode_one {a : UInt8} (ha : a.toNat < 0x80) (bytes : List UInt8) :
    decode (a :: bytes) = (decode bytes).map (scalar a.toNat [] :: ·) := by
  conv_lhs => unfold decode
  exact if_pos (lt_byte_iff.2 ha)

theorem decode_two {a b : UInt8} (ha : 0xC2 ≤ a.toNat ∧ a.toNat ≤ 0xDF)
    (hb : continuation b = true) (bytes : List UInt8) :
    decode (a :: b :: bytes) = (decode bytes).map (scalar (a.toNat - 0xC0) [b] :: ·) := by
  have hone : ¬ a < 0x80 := fun h => absurd (lt_byte_iff.1 h) (Nat.not_lt.2 (by
    change 0x80 ≤ a.toNat
    omega))
  conv_lhs => unfold decode
  simp only [if_neg hone]
  exact if_pos ⟨le_byte_iff.2 ha.1, le_byte_iff.2 ha.2, hb⟩

theorem decode_three {a b c : UInt8} (ha : 0xE0 ≤ a.toNat ∧ a.toNat ≤ 0xEF)
    (hb : continuation b = true) (hc : continuation c = true)
    (hlow : a.toNat = 0xE0 → 0xA0 ≤ b.toNat) (hhigh : a.toNat = 0xED → b.toNat ≤ 0x9F)
    (bytes : List UInt8) :
    decode (a :: b :: c :: bytes) =
      (decode bytes).map (scalar (a.toNat - 0xE0) [b, c] :: ·) := by
  have hone : ¬ a < 0x80 := fun h => absurd (lt_byte_iff.1 h) (Nat.not_lt.2 (by
    change 0x80 ≤ a.toNat
    omega))
  have htwo : ¬ (0xC2 ≤ a ∧ a ≤ 0xDF ∧ continuation b) := by
    rintro ⟨-, h, -⟩
    have hle : a.toNat ≤ 0xDF := le_byte_iff.1 h
    omega
  conv_lhs => unfold decode
  simp only [if_neg hone, if_neg htwo]
  exact if_pos ⟨le_byte_iff.2 ha.1, le_byte_iff.2 ha.2, hb, hc,
    fun h => le_byte_iff.2 (hlow (congrArg UInt8.toNat h)),
    fun h => le_byte_iff.2 (hhigh (congrArg UInt8.toNat h))⟩

theorem decode_four {a b c d : UInt8} (ha : 0xF0 ≤ a.toNat ∧ a.toNat ≤ 0xF4)
    (hb : continuation b = true) (hc : continuation c = true) (hd : continuation d = true)
    (hlow : a.toNat = 0xF0 → 0x90 ≤ b.toNat) (hhigh : a.toNat = 0xF4 → b.toNat ≤ 0x8F)
    (bytes : List UInt8) :
    decode (a :: b :: c :: d :: bytes) =
      (decode bytes).map (scalar (a.toNat - 0xF0) [b, c, d] :: ·) := by
  have hone : ¬ a < 0x80 := fun h => absurd (lt_byte_iff.1 h) (Nat.not_lt.2 (by
    change 0x80 ≤ a.toNat
    omega))
  have htwo : ¬ (0xC2 ≤ a ∧ a ≤ 0xDF ∧ continuation b) := by
    rintro ⟨-, h, -⟩
    have hle : a.toNat ≤ 0xDF := le_byte_iff.1 h
    omega
  have hthree : ¬ (0xE0 ≤ a ∧ a ≤ 0xEF ∧ continuation b ∧ continuation c ∧
      (a = 0xE0 → 0xA0 ≤ b) ∧ (a = 0xED → b ≤ 0x9F)) := by
    rintro ⟨-, h, -⟩
    have hle : a.toNat ≤ 0xEF := le_byte_iff.1 h
    omega
  conv_lhs => unfold decode
  simp only [if_neg hone, if_neg htwo, if_neg hthree]
  exact if_pos ⟨le_byte_iff.2 ha.1, le_byte_iff.2 ha.2, hb, hc, hd,
    fun h => le_byte_iff.2 (hlow (congrArg UInt8.toNat h)),
    fun h => le_byte_iff.2 (hhigh (congrArg UInt8.toNat h))⟩

/-- The character that leading bits and continuation bytes give. -/
theorem scalar_eq {c : Char} {lead : ℕ} {bytes : List UInt8}
    (h : bytes.foldl (fun n b => n * 64 + (b.toNat - 0x80)) lead = c.toNat) :
    scalar lead bytes = c := by
  rw [scalar, h, Char.ofNat_toNat]

theorem utf8EncodeChar_eq (c : Char) :
    String.utf8EncodeChar c =
      if c.toNat ≤ 0x7F then [UInt8.ofNat c.toNat]
      else if c.toNat ≤ 0x7FF then
        [UInt8.ofNat (c.toNat / 64 % 0x20 + 0xC0), UInt8.ofNat (c.toNat % 0x40 + 0x80)]
      else if c.toNat ≤ 0xFFFF then
        [UInt8.ofNat (c.toNat / 4096 % 0x10 + 0xE0), UInt8.ofNat (c.toNat / 64 % 0x40 + 0x80),
          UInt8.ofNat (c.toNat % 0x40 + 0x80)]
      else
        [UInt8.ofNat (c.toNat / 262144 % 0x08 + 0xF0), UInt8.ofNat (c.toNat / 4096 % 0x40 + 0x80),
          UInt8.ofNat (c.toNat / 64 % 0x40 + 0x80), UInt8.ofNat (c.toNat % 0x40 + 0x80)] := rfl

/-- A character is read back from its bytes. -/
theorem decode_char (c : Char) (bytes : List UInt8) :
    decode (String.utf8EncodeChar c ++ bytes) = (decode bytes).map (c :: ·) := by
  have hvalid : c.toNat < 0xD800 ∨ 0xDFFF < c.toNat ∧ c.toNat < 0x110000 := c.valid
  rw [utf8EncodeChar_eq]
  split
  · next hone =>
      have ha := toNat_byte (n := c.toNat) (by omega)
      rw [List.singleton_append, decode_one (by omega), ha, scalar_eq rfl]
  split
  · next hone htwo =>
      have ha := toNat_byte (n := c.toNat / 64 % 0x20 + 0xC0) (by omega)
      have hb := toNat_byte (n := c.toNat % 0x40 + 0x80) (by omega)
      rw [List.cons_append, List.singleton_append,
        decode_two (by omega) (continuation_iff.2 (by omega)),
        scalar_eq (c := c) (by simp only [List.foldl_cons, List.foldl_nil]; omega)]
  split
  · next hone htwo hthree =>
      have ha := toNat_byte (n := c.toNat / 4096 % 0x10 + 0xE0) (by omega)
      have hb := toNat_byte (n := c.toNat / 64 % 0x40 + 0x80) (by omega)
      have hc := toNat_byte (n := c.toNat % 0x40 + 0x80) (by omega)
      rw [List.cons_append, List.cons_append, List.singleton_append,
        decode_three (by omega) (continuation_iff.2 (by omega)) (continuation_iff.2 (by omega))
          (by omega) (by omega),
        scalar_eq (c := c) (by simp only [List.foldl_cons, List.foldl_nil]; omega)]
  · next hone htwo hthree =>
      have ha := toNat_byte (n := c.toNat / 262144 % 0x08 + 0xF0) (by omega)
      have hb := toNat_byte (n := c.toNat / 4096 % 0x40 + 0x80) (by omega)
      have hc := toNat_byte (n := c.toNat / 64 % 0x40 + 0x80) (by omega)
      have hd := toNat_byte (n := c.toNat % 0x40 + 0x80) (by omega)
      rw [List.cons_append, List.cons_append, List.cons_append, List.singleton_append,
        decode_four (by omega) (continuation_iff.2 (by omega)) (continuation_iff.2 (by omega))
          (continuation_iff.2 (by omega)) (by omega) (by omega),
        scalar_eq (c := c) (by simp only [List.foldl_cons, List.foldl_nil]; omega)]

theorem decode_encode (text : List Char) : decode (encode text) = some text := by
  induction text with
  | nil => rfl
  | cons c text ih =>
      have hcons : encode (c :: text) = String.utf8EncodeChar c ++ encode text := rfl
      rw [hcons, decode_char, ih]
      rfl

/-! ## From bytes to characters -/

/-- A number below 256 is the number of one byte. -/
theorem byte_eq {n : ℕ} {a : UInt8} (h : n = a.toNat) : UInt8.ofNat n = a := by
  rw [h, UInt8.ofNat_toNat]

theorem toNat_scalar {lead v : ℕ} {bytes : List UInt8}
    (h : bytes.foldl (fun n b => n * 64 + (b.toNat - 0x80)) lead = v) (hv : v.isValidChar) :
    (scalar lead bytes).toNat = v := by
  rw [scalar, h, Json.toNat_ofNat hv]

theorem utf8EncodeChar_one {a : UInt8} (ha : a.toNat < 0x80) :
    String.utf8EncodeChar (scalar a.toNat []) = [a] := by
  have hchar : (scalar a.toNat []).toNat = a.toNat := toNat_scalar rfl (Or.inl (by omega))
  rw [utf8EncodeChar_eq, hchar, if_pos (by omega), byte_eq rfl]

theorem utf8EncodeChar_two {a b : UInt8} (ha : 0xC2 ≤ a.toNat ∧ a.toNat ≤ 0xDF)
    (hb : 0x80 ≤ b.toNat ∧ b.toNat ≤ 0xBF) :
    String.utf8EncodeChar (scalar (a.toNat - 0xC0) [b]) = [a, b] := by
  have hchar : (scalar (a.toNat - 0xC0) [b]).toNat = (a.toNat - 0xC0) * 64 + (b.toNat - 0x80) :=
    toNat_scalar rfl (Or.inl (by omega))
  rw [utf8EncodeChar_eq, hchar, if_neg (by omega), if_pos (by omega), byte_eq (a := a) (by omega),
    byte_eq (a := b) (by omega)]

theorem utf8EncodeChar_three {a b c : UInt8} (ha : 0xE0 ≤ a.toNat ∧ a.toNat ≤ 0xEF)
    (hb : 0x80 ≤ b.toNat ∧ b.toNat ≤ 0xBF) (hc : 0x80 ≤ c.toNat ∧ c.toNat ≤ 0xBF)
    (hlow : a.toNat = 0xE0 → 0xA0 ≤ b.toNat) (hhigh : a.toNat = 0xED → b.toNat ≤ 0x9F) :
    String.utf8EncodeChar (scalar (a.toNat - 0xE0) [b, c]) = [a, b, c] := by
  have hchar : (scalar (a.toNat - 0xE0) [b, c]).toNat =
      ((a.toNat - 0xE0) * 64 + (b.toNat - 0x80)) * 64 + (c.toNat - 0x80) := by
    refine toNat_scalar rfl ?_
    rcases Nat.lt_or_ge a.toNat 0xEE with hlt | hge
    · exact Or.inl (by omega)
    · exact Or.inr ⟨by omega, by omega⟩
  rw [utf8EncodeChar_eq, hchar, if_neg (by omega), if_neg (by omega), if_pos (by omega),
    byte_eq (a := a) (by omega), byte_eq (a := b) (by omega), byte_eq (a := c) (by omega)]

theorem utf8EncodeChar_four {a b c d : UInt8} (ha : 0xF0 ≤ a.toNat ∧ a.toNat ≤ 0xF4)
    (hb : 0x80 ≤ b.toNat ∧ b.toNat ≤ 0xBF) (hc : 0x80 ≤ c.toNat ∧ c.toNat ≤ 0xBF)
    (hd : 0x80 ≤ d.toNat ∧ d.toNat ≤ 0xBF) (hlow : a.toNat = 0xF0 → 0x90 ≤ b.toNat)
    (hhigh : a.toNat = 0xF4 → b.toNat ≤ 0x8F) :
    String.utf8EncodeChar (scalar (a.toNat - 0xF0) [b, c, d]) = [a, b, c, d] := by
  have hchar : (scalar (a.toNat - 0xF0) [b, c, d]).toNat =
      (((a.toNat - 0xF0) * 64 + (b.toNat - 0x80)) * 64 + (c.toNat - 0x80)) * 64 +
        (d.toNat - 0x80) :=
    toNat_scalar rfl (Or.inr ⟨by omega, by omega⟩)
  rw [utf8EncodeChar_eq, hchar, if_neg (by omega), if_neg (by omega), if_neg (by omega),
    byte_eq (a := a) (by omega), byte_eq (a := b) (by omega), byte_eq (a := c) (by omega),
    byte_eq (a := d) (by omega)]

theorem encode_cons (c : Char) (text : List Char) :
    encode (c :: text) = String.utf8EncodeChar c ++ encode text := rfl

/-- What is decoded is encoded as it was. -/
theorem encode_of_decode {bytes : List UInt8} {text : List Char}
    (h : decode bytes = some text) : encode text = bytes := by
  fun_induction decode bytes generalizing text with
  | case1 => cases h; rfl
  | case2 a bytes hone ih =>
      obtain ⟨rest, hrest, rfl⟩ := Option.map_eq_some_iff.1 h
      rw [encode_cons, ih hrest, utf8EncodeChar_one (lt_byte_iff.1 hone)]
      rfl
  | case3 => cases h
  | case4 a hone b bytes htwo ih =>
      obtain ⟨rest, hrest, rfl⟩ := Option.map_eq_some_iff.1 h
      rw [encode_cons, ih hrest, utf8EncodeChar_two ⟨le_byte_iff.1 htwo.1, le_byte_iff.1 htwo.2.1⟩
        (continuation_iff.1 htwo.2.2)]
      rfl
  | case5 => cases h
  | case6 a hone b htwo c bytes hthree ih =>
      obtain ⟨rest, hrest, rfl⟩ := Option.map_eq_some_iff.1 h
      obtain ⟨hlow, hhigh, hb, hc, he0, hed⟩ := hthree
      rw [encode_cons, ih hrest, utf8EncodeChar_three ⟨le_byte_iff.1 hlow, le_byte_iff.1 hhigh⟩
        (continuation_iff.1 hb) (continuation_iff.1 hc)
        (fun ha => le_byte_iff.1 (he0 (UInt8.toNat_inj.1 ha)))
        (fun ha => le_byte_iff.1 (hed (UInt8.toNat_inj.1 ha)))]
      rfl
  | case7 => cases h
  | case8 a hone b htwo c hthree d bytes hfour ih =>
      obtain ⟨rest, hrest, rfl⟩ := Option.map_eq_some_iff.1 h
      obtain ⟨hlow, hhigh, hb, hc, hd, hf0, hf4⟩ := hfour
      rw [encode_cons, ih hrest, utf8EncodeChar_four ⟨le_byte_iff.1 hlow, le_byte_iff.1 hhigh⟩
        (continuation_iff.1 hb) (continuation_iff.1 hc) (continuation_iff.1 hd)
        (fun ha => le_byte_iff.1 (hf0 (UInt8.toNat_inj.1 ha)))
        (fun ha => le_byte_iff.1 (hf4 (UInt8.toNat_inj.1 ha)))]
      rfl
  | case9 => cases h

/-- The decoder accepts exactly the encodings of texts, each as its text: a byte
sequence that is no encoding is refused, and so every character has one form only. -/
theorem decode_eq_some_iff (bytes : List UInt8) (text : List Char) :
    decode bytes = some text ↔ encode text = bytes := by
  constructor
  · exact encode_of_decode
  · rintro rfl
    exact decode_encode text

end Consumer

end FlashSale
