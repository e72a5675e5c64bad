import FlashSale.Library.Json
import Mathlib.Data.List.TakeWhile
import Mathlib.Tactic.IntervalCases

/-!
# Reading what was written

The scanner reads each piece that `dumps` writes and leaves the text behind it
(`scanValue_dumps`), so `loads` reads back what `dumps` wrote (`loads_dumps`). What
the scanner has read is well formed (`wellFormed_of_loads`), and a value survives the
way through a text exactly in this form. The bound on the nesting that `loads` takes
is enough for every text (`loads_eq_of_le`).
-/

namespace Json

variable {F : Type}

/-! ## Strings -/

/-- A string without a surrogate pair: the two would be read as one code point. -/
def IsText (s : List ℕ) : Prop :=
  (∀ n ∈ s, n < 0x110000) ∧
    s.IsChain fun a b => ¬ (isHighSurrogate a = true ∧ isLowSurrogate b = true)

theorem isText_nil : IsText [] := ⟨fun _ h => (List.not_mem_nil h).elim, .nil⟩

theorem IsText.tail {n : ℕ} {s : List ℕ} (h : IsText (n :: s)) : IsText s :=
  ⟨fun m hm => h.1 m (List.mem_cons_of_mem n hm), h.2.tail⟩

theorem IsText.push_eq {n : ℕ} {s : List ℕ} (h : IsText (n :: s)) : push n s = n :: s := by
  cases s with
  | nil => rfl
  | cons m s => rw [push, if_neg (List.isChain_cons_cons.1 h.2).1]

theorem IsText.cons {n : ℕ} {s : List ℕ} (hn : n < 0x110000) (hhigh : isHighSurrogate n = false)
    (h : IsText s) : IsText (n :: s) := by
  refine ⟨fun m hm => ?_, ?_⟩
  · rcases List.mem_cons.1 hm with rfl | hm
    · exact hn
    · exact h.1 m hm
  · cases s with
    | nil => exact .singleton n
    | cons m s =>
        refine List.isChain_cons_cons.2 ⟨?_, h.2⟩
        rintro ⟨hbad, -⟩
        cases hhigh.symm.trans hbad

theorem push_low {n : ℕ} (h : isLowSurrogate n = true) (s : List ℕ) : push n s = n :: s := by
  cases s with
  | nil => rfl
  | cons m s =>
      refine if_neg ?_
      rintro ⟨hhigh, -⟩
      have hlow := isLowSurrogate_iff.1 h
      have hrange := isHighSurrogate_iff.1 hhigh
      omega

theorem push_pair {n m : ℕ} (hn : isHighSurrogate n = true) (hm : isLowSurrogate m = true)
    (s : List ℕ) : push n (m :: s) = joinSurrogates n m :: s := if_pos ⟨hn, hm⟩

theorem joinSurrogates_add (q r : ℕ) :
    joinSurrogates (0xD800 + q) (0xDC00 + r) = 0x10000 + q * 0x400 + r := by
  unfold joinSurrogates
  omega

theorem toNat_ofNat {n : ℕ} (h : n.isValidChar) : (Char.ofNat n).toNat = n := by
  rw [Char.ofNat, dif_pos h]
  rfl

theorem hexValue_digitChar {d : ℕ} (h : d < 16) : hexValue (Nat.digitChar d) = some d := by
  interval_cases d <;> rfl

theorem codeUnit_digitChar {a b c d : ℕ} (ha : a < 16) (hb : b < 16) (hc : c < 16) (hd : d < 16) :
    codeUnit (Nat.digitChar a) (Nat.digitChar b) (Nat.digitChar c) (Nat.digitChar d) =
      some (a * 4096 + b * 256 + c * 16 + d) := by
  rw [codeUnit, hexValue_digitChar ha, hexValue_digitChar hb, hexValue_digitChar hc,
    hexValue_digitChar hd]
  rfl

theorem scanString_unicodeEscape {n : ℕ} (h : n < 0x10000) (text : List Char) :
    scanString (unicodeEscape n ++ text) =
      (scanString text).map fun r => (push n r.1, r.2) := by
  have hvalue : n / 4096 % 16 * 4096 + n / 256 % 16 * 256 + n / 16 % 16 * 16 + n % 16 = n := by
    omega
  have hunit := codeUnit_digitChar (Nat.mod_lt (n / 4096) (by decide : 0 < 16))
    (Nat.mod_lt (n / 256) (by decide : 0 < 16)) (Nat.mod_lt (n / 16) (by decide : 0 < 16))
    (Nat.mod_lt n (by decide : 0 < 16))
  rw [hvalue] at hunit
  simp only [unicodeEscape, List.cons_append, List.nil_append, scanString, hunit,
    Option.bind_some]

theorem scanString_plain {c : Char} (hquote : c ≠ '"') (hslash : c ≠ '\\')
    (hspace : ¬ c.toNat < 0x20) (text : List Char) :
    scanString (c :: text) = (scanString text).map fun r => (c.toNat :: r.1, r.2) := by
  rw [scanString.eq_5 c text hquote (fun _ _ _ _ _ h _ => hslash h) (fun _ _ h _ => hslash h),
    if_neg hspace]

/-- A code point that is escaped is read in front of what follows. -/
theorem scanString_escape {n : ℕ} {s : List ℕ} (h : IsText (n :: s)) {text rest : List Char}
    (htext : scanString text = some (s, rest)) :
    scanString (escape n ++ text) = some (n :: s, rest) := by
  have hlt : n < 0x110000 := h.1 n List.mem_cons_self
  rw [escape]
  split
  · next hn => subst hn; simp [scanString, unescape, htext]
  split
  · next hn => subst hn; simp [scanString, unescape, htext]
  split
  · next hn => subst hn; simp [scanString, unescape, htext]
  split
  · next hn => subst hn; simp [scanString, unescape, htext]
  split
  · next hn => subst hn; simp [scanString, unescape, htext]
  split
  · next hn => subst hn; simp [scanString, unescape, htext]
  split
  · next hn => subst hn; simp [scanString, unescape, htext]
  split
  · next hquote hslash _ _ _ _ _ hprintable =>
      have hnat : (Char.ofNat n).toNat = n := toNat_ofNat (Or.inl (by omega))
      have hne : ∀ c : Char, n ≠ c.toNat → Char.ofNat n ≠ c := by
        rintro c hc rfl
        exact hc hnat.symm
      rw [List.singleton_append, scanString_plain (hne '"' hquote) (hne '\\' hslash)
        (by omega), htext, hnat]
      rfl
  split
  · next hsmall =>
      rw [scanString_unicodeEscape hsmall, htext, Option.map_some, h.push_eq]
  · next hlarge =>
      -- the second escape is read first, and the first one is joined with it
      have hq : (n - 0x10000) / 0x400 < 0x400 := by omega
      have hr : (n - 0x10000) % 0x400 < 0x400 := by omega
      have hsum : 0x10000 + (n - 0x10000) / 0x400 * 0x400 + (n - 0x10000) % 0x400 = n := by omega
      generalize (n - 0x10000) / 0x400 = q at hq hsum ⊢
      generalize (n - 0x10000) % 0x400 = r at hr hsum ⊢
      have hhigh : isHighSurrogate (0xD800 + q) = true := isHighSurrogate_iff.2 (by omega)
      have hlow : isLowSurrogate (0xDC00 + r) = true := isLowSurrogate_iff.2 (by omega)
      have hjoin : joinSurrogates (0xD800 + q) (0xDC00 + r) = n :=
        (joinSurrogates_add q r).trans hsum
      have hsecond : scanString (unicodeEscape (0xDC00 + r) ++ text) =
          some ((0xDC00 + r) :: s, rest) := by
        rw [scanString_unicodeEscape (by omega), htext, Option.map_some, push_low hlow]
      rw [List.append_assoc, scanString_unicodeEscape (by omega), hsecond, Option.map_some,
        push_pair hhigh hlow, hjoin]

/-- A string literal is read back. -/
theorem scanString_quote {s : List ℕ} (h : IsText s) (rest : List Char) :
    scanString (s.flatMap escape ++ '"' :: rest) = some (s, rest) := by
  induction s with
  | nil => rfl
  | cons n s ih =>
      rw [List.flatMap_cons, List.append_assoc]
      exact scanString_escape h (ih h.tail)

/-! ## Numbers -/

/-- The text cannot go on with the number in front of it. -/
def Ends (text : List Char) : Prop :=
  ∀ c ∈ text.head?, c.isDigit = false ∧ c ≠ '.' ∧ c ≠ 'e' ∧ c ≠ 'E'

theorem ends_nil : Ends [] := fun _ h => by cases h

theorem ends_cons {c : Char} (hdigit : c.isDigit = false) (hdot : c ≠ '.') (he : c ≠ 'e')
    (hE : c ≠ 'E') (text : List Char) : Ends (c :: text) := by
  rintro d hd
  cases hd
  exact ⟨hdigit, hdot, he, hE⟩

theorem digit_cases {c : Char} (h : c.isDigit = true) :
    c = '0' ∨ c = '1' ∨ c = '2' ∨ c = '3' ∨ c = '4' ∨ c = '5' ∨ c = '6' ∨ c = '7' ∨
      c = '8' ∨ c = '9' := by
  have hlow : 48 ≤ c.toNat := (Char.isDigit_iff_toNat.1 h).1
  have hhigh : c.toNat ≤ 57 := (Char.isDigit_iff_toNat.1 h).2
  rw [← Char.ofNat_toNat c]
  interval_cases c.toNat <;> decide

/-- The digits of a positive number do not begin with a zero. -/
theorem toDigits_head {m : ℕ} (hm : 0 < m) :
    ∃ c ds, Nat.toDigits 10 m = c :: ds ∧ c ≠ '0' ∧ c.isDigit = true ∧
      ∀ d ∈ ds, d.isDigit = true := by
  have hall : ∀ d ∈ Nat.toDigits 10 m, d.isDigit = true := fun d hd =>
    Nat.isDigit_of_mem_toDigits (by decide) (by decide) hd
  have hhead : ∃ c ds, Nat.toDigits 10 m = c :: ds ∧ c ≠ '0' := by
    induction m using Nat.strongRecOn with
    | _ m ih =>
        rw [Nat.toDigits_eq_if (by decide)]
        split
        · next hlt =>
            refine ⟨_, _, rfl, ?_⟩
            interval_cases m <;> decide
        · next hle =>
            have hpos : 0 < m / 10 := by omega
            obtain ⟨c, ds, heq, hc⟩ := ih (m / 10) (by omega) hpos fun d hd =>
              Nat.isDigit_of_mem_toDigits (by decide) (by decide) hd
            rw [heq]
            exact ⟨c, _, rfl, hc⟩
  obtain ⟨c, ds, heq, hc⟩ := hhead
  rw [heq] at hall
  exact ⟨c, ds, heq, hc, hall c List.mem_cons_self,
    fun d hd => hall d (List.mem_cons_of_mem c hd)⟩

theorem takeWhile_digits {ds rest : List Char} (h : ∀ d ∈ ds, d.isDigit = true)
    (hrest : Ends rest) :
    (ds ++ rest).takeWhile Char.isDigit = ds ∧ (ds ++ rest).dropWhile Char.isDigit = rest := by
  rw [List.takeWhile_append_of_pos h, List.dropWhile_append_of_pos h]
  cases rest with
  | nil => exact ⟨List.append_nil ds, rfl⟩
  | cons c rest =>
      have hc := (hrest c rfl).1
      rw [List.takeWhile_cons_of_neg (by simp [hc]), List.dropWhile_cons_of_neg (by simp [hc])]
      exact ⟨List.append_nil ds, rfl⟩

theorem scanDigits_toDigits (m : ℕ) {rest : List Char} (hrest : Ends rest) :
    scanDigits (Nat.toDigits 10 m ++ rest) = some (Nat.toDigits 10 m, rest) := by
  rcases Nat.eq_zero_or_pos m with rfl | hm
  · rfl
  · obtain ⟨c, ds, heq, hc, hdigit, hall⟩ := toDigits_head hm
    rw [heq, List.cons_append, scanDigits, if_neg hc, if_pos hdigit,
      (takeWhile_digits hall hrest).1, (takeWhile_digits hall hrest).2]

theorem scanFraction_of_ends {rest : List Char} (h : Ends rest) :
    scanFraction rest = ([], rest) := by
  cases rest with
  | nil => rfl
  | cons c rest => exact scanFraction.eq_2 _ fun _ heq => (h c rfl).2.1 (List.cons.inj heq).1

theorem scanExponent_of_ends {rest : List Char} (h : Ends rest) :
    scanExponent rest = ([], rest) := by
  cases rest with
  | nil => rfl
  | cons c rest =>
      refine if_neg ?_
      rintro ⟨he | hE, -⟩
      · exact (h c rfl).2.2.1 he
      · exact (h c rfl).2.2.2 hE

section Read

variable {float : List Char → F} {repr : F → List Char}

theorem scanUnsigned_toDigits {negative : Bool} {m : ℕ}
    (hm : (Nat.toDigits 10 m).length ≤ maxStrDigits) {rest : List Char} (hrest : Ends rest) :
    scanUnsigned float negative (Nat.toDigits 10 m ++ rest) =
      some (.int (if negative then -(m : ℤ) else m), rest) := by
  simp only [scanUnsigned, scanDigits_toDigits m hrest, scanFraction_of_ends hrest,
    scanExponent_of_ends hrest, Option.bind_eq_bind, Option.bind_some, if_pos hm, and_self,
    if_true, Nat.ofDigitChars_ten_toDigits]
  rfl

/-- A text that begins with a digit is scanned as a number. -/
theorem scanValue_digit {c : Char} (h : c.isDigit = true) (n : ℕ) (text : List Char) :
    scanValue float (n + 1) (c :: text) = scanUnsigned float false (c :: text) := by
  rcases digit_cases h with rfl | rfl | rfl | rfl | rfl | rfl | rfl | rfl | rfl | rfl <;> rfl

theorem scanValue_minus_digit {c : Char} (h : c.isDigit = true) (n : ℕ) (text : List Char) :
    scanValue float (n + 1) ('-' :: c :: text) = scanUnsigned float true (c :: text) := by
  rcases digit_cases h with rfl | rfl | rfl | rfl | rfl | rfl | rfl | rfl | rfl | rfl <;> rfl

/-- An integer is read back. -/
theorem scanValue_reprInt {k : ℤ} {text rest : List Char} (h : reprInt k = some text)
    (hrest : Ends rest) (n : ℕ) :
    scanValue float (n + 1) (text ++ rest) = some (.int k, rest) := by
  obtain ⟨hlen, heq⟩ := Option.ite_none_right_eq_some.1 h
  obtain ⟨c, ds, hdigits, hc⟩ : ∃ c ds, Nat.toDigits 10 k.natAbs = c :: ds ∧
      c.isDigit = true := by
    rcases Nat.eq_zero_or_pos k.natAbs with hzero | hpos
    · exact ⟨'0', [], by rw [hzero]; rfl, rfl⟩
    · obtain ⟨c, ds, hds, -, hc, -⟩ := toDigits_head hpos
      exact ⟨c, ds, hds, hc⟩
  have hscan : ∀ negative : Bool, scanUnsigned float negative (Nat.toDigits 10 k.natAbs ++ rest) =
      some (.int (if negative then -(k.natAbs : ℤ) else k.natAbs), rest) :=
    fun _ => scanUnsigned_toDigits hlen hrest
  split at heq
  · next hneg =>
      cases heq
      have hk : -(k.natAbs : ℤ) = k := by omega
      rw [hdigits, List.cons_append, List.cons_append, scanValue_minus_digit hc,
        ← List.cons_append, ← hdigits, hscan, if_pos rfl, hk]
  · next hneg =>
      cases heq
      have hk : (k.natAbs : ℤ) = k := by omega
      rw [hdigits, List.cons_append, scanValue_digit hc, ← List.cons_append, ← hdigits, hscan,
        if_neg Bool.false_ne_true, hk]

/-! ## Values -/

mutual

/-- The value can go through a text: its integers are short enough, its strings hold
no surrogate pair, the keys of a dict are distinct, and its floats are in `P`. -/
def WellFormed (P : F → Prop) : Json F → Prop
  | null => True
  | bool _ => True
  | int n => (Nat.toDigits 10 n.natAbs).length ≤ maxStrDigits
  | .float x => P x
  | str s => IsText s
  | list items => WellFormedItems P items
  | dict items => (items.map Prod.fst).Nodup ∧ WellFormedMembers P items

def WellFormedItems (P : F → Prop) : List (Json F) → Prop
  | [] => True
  | j :: items => WellFormed P j ∧ WellFormedItems P items

def WellFormedMembers (P : F → Prop) : List (List ℕ × Json F) → Prop
  | [] => True
  | (key, j) :: items => IsText key ∧ WellFormed P j ∧ WellFormedMembers P items

end

/-- Where a value begins there is neither white space nor a closing bracket. -/
theorem scanValue_head {n : ℕ} {text : List Char} {r : Json F × List Char}
    (h : scanValue float n text = some r) :
    ∃ c rest, text = c :: rest ∧ isSpace c = false ∧ c ≠ ']' := by
  cases n with
  | zero => cases h
  | succ n =>
      cases text with
      | nil => cases h
      | cons c rest =>
          refine ⟨c, rest, rfl, ?_, ?_⟩
          · cases hspace : isSpace c with
            | false => rfl
            | true =>
                rcases of_decide_eq_true hspace with rfl | rfl | rfl | rfl <;> cases h
          · rintro rfl
            cases h

theorem skip_cons {c : Char} (h : isSpace c = false) (text : List Char) :
    skip (c :: text) = c :: text := List.dropWhile_cons_of_neg (by simp [h])

theorem skip_of_scanValue {n : ℕ} {text : List Char} {r : Json F × List Char}
    (h : scanValue float n text = some r) : skip text = text := by
  obtain ⟨c, rest, rfl, hspace, -⟩ := scanValue_head h
  exact skip_cons hspace rest

/-- No value begins with a byte order mark. -/
theorem head_ne_of_scanValue {n : ℕ} {text : List Char} {r : Json F × List Char}
    (h : scanValue float n text = some r) : text.head? ≠ some (Char.ofNat 0xFEFF) := by
  cases n with
  | zero => cases h
  | succ n =>
      cases text with
      | nil => cases h
      | cons c rest =>
          intro hbom
          cases hbom
          cases h

theorem scanItems_head {n : ℕ} {text : List Char} {r : List (Json F) × List Char}
    (h : scanItems float n text = some r) :
    ∃ c rest, text = c :: rest ∧ isSpace c = false ∧ c ≠ ']' := by
  cases n with
  | zero => cases h
  | succ n =>
      obtain ⟨v, hv, -⟩ := Option.bind_eq_some_iff.1 h
      exact scanValue_head hv

theorem scanMembers_head {n : ℕ} {items : List (List ℕ × Json F)} {text : List Char}
    {r : List (List ℕ × Json F) × List Char} (h : scanMembers float n items text = some r) :
    ∃ rest, text = '"' :: rest := by
  cases n with
  | zero => cases h
  | succ n =>
      unfold scanMembers at h
      split at h
      · next rest => exact ⟨rest, rfl⟩
      · cases h

theorem scanValue_list {n : ℕ} {text rest : List Char} {items : List (Json F)}
    (h : scanItems float n text = some (items, rest)) :
    scanValue float (n + 1) ('[' :: text) = some (.list items, rest) := by
  obtain ⟨c, t, rfl, hspace, hclose⟩ := scanItems_head h
  simp only [scanValue, skip_cons hspace]
  split
  · next heq => exact absurd (List.cons.inj heq).1 hclose
  · rw [h]
    rfl

theorem scanValue_dict {n : ℕ} {text rest : List Char} {items : List (List ℕ × Json F)}
    (h : scanMembers float n [] text = some (items, rest)) :
    scanValue float (n + 1) ('{' :: text) = some (.dict items, rest) := by
  obtain ⟨t, rfl⟩ := scanMembers_head h
  change (scanMembers float n [] ('"' :: t)).map _ = _
  rw [h]
  rfl

theorem quote_append (s : List ℕ) (text : List Char) :
    quote s ++ text = '"' :: (s.flatMap escape ++ '"' :: text) := by
  rw [quote, List.cons_append, List.append_assoc]
  rfl

/-- A key of a dict and its colon are read in front of the value. -/
theorem scanMembers_key {key : List ℕ} (hkey : IsText key) {n : ℕ} {text rest : List Char}
    {j : Json F} (h : scanValue float n text = some (j, rest))
    (items : List (List ℕ × Json F)) :
    scanMembers float (n + 1) items (quote key ++ ':' :: ' ' :: text) =
      match skip rest with
      | '}' :: rest => some (setItem key j items, rest)
      | ',' :: rest => scanMembers float n (setItem key j items) (skip rest)
      | _ => none := by
  have hskip : skip (' ' :: text) = text := skip_of_scanValue h
  rw [quote_append]
  simp only [scanMembers, scanString_quote hkey, Option.bind_some]
  change (scanValue float n (skip (' ' :: text))).bind _ = _
  rw [hskip, h]
  rfl

theorem setItem_of_notMem {key : List ℕ} {j : Json F} {items : List (List ℕ × Json F)}
    (h : key ∉ items.map Prod.fst) : setItem key j items = items ++ [(key, j)] := by
  induction items with
  | nil => rfl
  | cons item items ih =>
      obtain ⟨hne, hrest⟩ := not_or.1 fun hor => h (List.mem_cons.2 hor)
      rw [setItem, if_neg (Ne.symm hne), ih hrest]
      rfl

/-- The text of the float is read back, by itself and in front of other text. -/
def ReadsBack (float : List Char → F) (repr : F → List Char) (x : F) : Prop :=
  ∀ n rest, Ends rest → scanValue float (n + 1) (repr x ++ rest) = some (.float x, rest)

variable {P : F → Prop}

theorem key_notMem {done items : List (List ℕ × Json F)} {item : List ℕ × Json F}
    (h : ((done ++ item :: items).map Prod.fst).Nodup) : item.1 ∉ done.map Prod.fst := by
  rw [List.map_append] at h
  exact fun hmem => List.disjoint_of_nodup_append h hmem List.mem_cons_self

mutual

/-- What `dumps` writes is read back, and the text behind it is left. -/
theorem scanValue_dumps (hP : ∀ x, P x → ReadsBack float repr x) {rest : List Char} {n : ℕ} :
    (j : Json F) → {text : List Char} → WellFormed P j → dumps repr j = some text → Ends rest →
      2 * text.length ≤ n → scanValue float (n + 1) (text ++ rest) = some (j, rest)
  | .null, _, _, h, _, _ => by cases h; rfl
  | .bool b, _, _, h, _, _ => by cases h; cases b <;> rfl
  | .int k, _, _, h, hrest, _ => scanValue_reprInt h hrest n
  | .float x, _, hj, h, hrest, _ => by
      cases h
      exact hP x hj n rest hrest
  | .str s, _, hj, h, _, _ => by
      cases h
      rw [quote_append]
      change (scanString (s.flatMap escape ++ '"' :: rest)).map _ = _
      rw [scanString_quote hj]
      rfl
  | .list [], _, _, h, _, _ => by cases h; rfl
  | .list (j :: items), _, hj, h, _, hn => by
      obtain ⟨text, htext, rfl⟩ := Option.map_eq_some_iff.1 h
      simp only [List.length_cons, List.length_append, List.length_nil] at hn
      rw [List.cons_append, List.append_assoc]
      obtain ⟨m, rfl⟩ : ∃ m, n = m + 1 := ⟨n - 1, by omega⟩
      exact scanValue_list (scanItems_dumps hP j items hj htext (by omega))
  | .dict [], _, _, h, _, _ => by cases h; rfl
  | .dict (item :: items), _, hj, h, _, hn => by
      obtain ⟨text, htext, rfl⟩ := Option.map_eq_some_iff.1 h
      simp only [List.length_cons, List.length_append, List.length_nil] at hn
      rw [List.cons_append, List.append_assoc]
      obtain ⟨m, rfl⟩ : ∃ m, n = m + 1 := ⟨n - 1, by omega⟩
      exact scanValue_dict (scanMembers_dumps hP item items [] hj.1 hj.2 htext (by omega))

theorem scanItems_dumps (hP : ∀ x, P x → ReadsBack float repr x) {rest : List Char} {n : ℕ}
    (j : Json F) : (items : List (Json F)) → {text : List Char} →
      WellFormedItems P (j :: items) → dumpsItems repr (j :: items) = some text →
      2 * text.length + 1 ≤ n →
      scanItems float (n + 1) (text ++ (']' :: rest)) = some (j :: items, rest)
  | [], text, hj, h, hn => by
      have hends : Ends (']' :: rest) :=
        ends_cons (by decide) (by decide) (by decide) (by decide) rest
      obtain ⟨m, rfl⟩ : ∃ m, n = m + 1 := ⟨n - 1, by omega⟩
      rw [scanItems, scanValue_dumps hP j hj.1 h hends (by omega)]
      rfl
  | k :: items, _, hj, h, hn => by
      obtain ⟨text, htext, h⟩ := Option.bind_eq_some_iff.1 h
      obtain ⟨texts, htexts, h⟩ := Option.bind_eq_some_iff.1 h
      cases h
      simp only [List.length_cons, List.length_append] at hn
      have hends : Ends (',' :: ' ' :: (texts ++ (']' :: rest))) :=
        ends_cons (by decide) (by decide) (by decide) (by decide) _
      obtain ⟨m, rfl⟩ : ∃ m, n = m + 1 := ⟨n - 1, by omega⟩
      have hitems : scanItems float (m + 1) (texts ++ (']' :: rest)) = some (k :: items, rest) :=
        scanItems_dumps hP k items hj.2 htexts (by omega)
      obtain ⟨c, t, heq, hspace, -⟩ := scanItems_head hitems
      have hskip : skip (' ' :: (texts ++ (']' :: rest))) = texts ++ (']' :: rest) := by
        rw [heq]
        exact skip_cons hspace t
      rw [List.append_assoc, List.cons_append, List.cons_append, scanItems,
        scanValue_dumps hP j hj.1 htext hends (by omega)]
      change (scanItems float (m + 1) (skip (' ' :: (texts ++ (']' :: rest))))).map _ = _
      rw [hskip, hitems]
      rfl

theorem scanMembers_dumps (hP : ∀ x, P x → ReadsBack float repr x) {rest : List Char} {n : ℕ}
    (item : List ℕ × Json F) : (items : List (List ℕ × Json F)) →
      (done : List (List ℕ × Json F)) → {text : List Char} →
      ((done ++ item :: items).map Prod.fst).Nodup → WellFormedMembers P (item :: items) →
      dumpsMembers repr (item :: items) = some text → 2 * text.length + 1 ≤ n →
      scanMembers float (n + 1) done (text ++ ('}' :: rest)) = some (done ++ item :: items, rest)
  | [], done, _, hkeys, hj, h, hn => by
      obtain ⟨text, htext, h⟩ := Option.bind_eq_some_iff.1 h
      cases h
      simp only [List.length_cons, List.length_append] at hn
      have hends : Ends ('}' :: rest) :=
        ends_cons (by decide) (by decide) (by decide) (by decide) rest
      obtain ⟨m, rfl⟩ : ∃ m, n = m + 1 := ⟨n - 1, by omega⟩
      have hvalue := scanValue_dumps hP item.2 hj.2.1 htext hends (n := m) (by omega)
      rw [List.append_assoc, List.cons_append, List.cons_append, scanMembers_key hj.1 hvalue]
      change some (setItem item.1 item.2 done, rest) = _
      rw [setItem_of_notMem (key_notMem hkeys)]
  | next :: items, done, _, hkeys, hj, h, hn => by
      obtain ⟨text, htext, h⟩ := Option.bind_eq_some_iff.1 h
      obtain ⟨texts, htexts, h⟩ := Option.bind_eq_some_iff.1 h
      cases h
      simp only [List.length_cons, List.length_append] at hn
      have hends : Ends (',' :: ' ' :: (texts ++ ('}' :: rest))) :=
        ends_cons (by decide) (by decide) (by decide) (by decide) _
      obtain ⟨m, rfl⟩ : ∃ m, n = m + 1 := ⟨n - 1, by omega⟩
      have hvalue := scanValue_dumps hP item.2 hj.2.1 htext hends (n := m) (by omega)
      have hkeys' : ((done ++ [item] ++ next :: items).map Prod.fst).Nodup := by
        rwa [List.append_assoc]
      have hitems : scanMembers float (m + 1) (done ++ [item]) (texts ++ ('}' :: rest)) =
          some (done ++ [item] ++ next :: items, rest) :=
        scanMembers_dumps hP next items (done ++ [item]) hkeys' hj.2.2 htexts (by omega)
      obtain ⟨t, heq⟩ := scanMembers_head hitems
      have hskip : skip (' ' :: (texts ++ ('}' :: rest))) = texts ++ ('}' :: rest) := by
        rw [heq]
        exact skip_cons (by decide : isSpace '"' = false) t
      have hnormal : quote item.1 ++ ':' :: ' ' :: (text ++ ',' :: ' ' :: texts) ++ '}' :: rest =
          quote item.1 ++ ':' :: ' ' :: (text ++ ',' :: ' ' :: (texts ++ '}' :: rest)) := by
        simp only [List.append_assoc, List.cons_append]
      rw [hnormal, scanMembers_key hj.1 hvalue]
      change scanMembers float (m + 1) (setItem item.1 item.2 done)
        (skip (' ' :: (texts ++ ('}' :: rest)))) = _
      rw [hskip, setItem_of_notMem (key_notMem hkeys), hitems, List.append_assoc]
      rfl

end

/-- `loads` reads back what `dumps` wrote. -/
theorem loads_dumps (hP : ∀ x, P x → ReadsBack float repr x) {j : Json F} {text : List Char}
    (hj : WellFormed P j) (h : dumps repr j = some text) : loads float text = some j := by
  have hvalue := scanValue_dumps hP j hj h ends_nil (Nat.le_refl (2 * text.length))
  rw [List.append_nil] at hvalue
  rw [loads, if_neg (head_ne_of_scanValue hvalue), skip_of_scanValue hvalue, hvalue]
  rfl

/-! ## What the scanner reads -/

theorem IsText.push {n : ℕ} {s : List ℕ} (hn : n < 0x110000) (h : IsText s) :
    IsText (push n s) := by
  cases s with
  | nil => exact ⟨by simpa [Json.push] using hn, .singleton n⟩
  | cons m s =>
      rw [Json.push]
      split
      · next hpair =>
          have hhigh := isHighSurrogate_iff.1 hpair.1
          have hlow := isLowSurrogate_iff.1 hpair.2
          have hjoin : joinSurrogates n m =
              0x10000 + (n - 0xD800) * 0x400 + (m - 0xDC00) := rfl
          refine h.tail.cons (by omega) (Bool.eq_false_iff.2 fun hbad => ?_)
          have hrange := isHighSurrogate_iff.1 hbad
          omega
      · next hpair =>
          refine ⟨fun k hk => ?_, List.isChain_cons_cons.2 ⟨hpair, h.2⟩⟩
          rcases List.mem_cons.1 hk with rfl | hk
          · exact hn
          · exact h.1 k hk

theorem hexValue_lt {c : Char} {v : ℕ} (h : hexValue c = some v) : v < 16 := by
  unfold hexValue at h
  split at h
  · next hc =>
      cases h
      have hle : c.toNat ≤ 0x39 := hc.2
      omega
  split at h
  · next hc =>
      cases h
      have hle : c.toNat ≤ 0x66 := hc.2
      omega
  split at h
  · next hc =>
      cases h
      have hle : c.toNat ≤ 0x46 := hc.2
      omega
  · cases h

theorem codeUnit_lt {a b c d : Char} {v : ℕ} (h : codeUnit a b c d = some v) : v < 0x10000 := by
  obtain ⟨va, ha, h⟩ := Option.bind_eq_some_iff.1 h
  obtain ⟨vb, hb, h⟩ := Option.bind_eq_some_iff.1 h
  obtain ⟨vc, hc, h⟩ := Option.bind_eq_some_iff.1 h
  obtain ⟨vd, hd, h⟩ := Option.bind_eq_some_iff.1 h
  cases h
  have hva := hexValue_lt ha
  have hvb := hexValue_lt hb
  have hvc := hexValue_lt hc
  have hvd := hexValue_lt hd
  omega

theorem unescape_lt {c : Char} {v : ℕ} (h : unescape c = some v) : v < 0x80 := by
  unfold unescape at h
  split at h <;> cases h <;> decide

/-- The strings that are read hold no surrogate pair. -/
theorem isText_of_scanString {text rest : List Char} {s : List ℕ}
    (h : scanString text = some (s, rest)) : IsText s := by
  fun_induction scanString text generalizing s rest with
  | case1 => cases h
  | case2 => cases h; exact isText_nil
  | case3 a b c d text ih =>
      obtain ⟨n, hn, h⟩ := Option.bind_eq_some_iff.1 h
      obtain ⟨r, hr, h⟩ := Option.map_eq_some_iff.1 h
      cases h
      exact (ih hr).push (lt_trans (codeUnit_lt hn) (by decide))
  | case4 c text _ ih =>
      obtain ⟨n, hn, h⟩ := Option.bind_eq_some_iff.1 h
      obtain ⟨r, hr, h⟩ := Option.map_eq_some_iff.1 h
      cases h
      have hlt := unescape_lt hn
      exact (ih hr).cons (by omega) (Bool.eq_false_iff.2 fun hbad => by
        have hrange := isHighSurrogate_iff.1 hbad
        omega)
  | case5 c text hcontrol => cases h
  | case6 c text _ _ _ _ ih =>
      obtain ⟨r, hr, h⟩ := Option.map_eq_some_iff.1 h
      cases h
      have hvalid : c.toNat < 0xD800 ∨ 0xDFFF < c.toNat ∧ c.toNat < 0x110000 := c.valid
      exact (ih hr).cons (by omega) (Bool.eq_false_iff.2 fun hbad => by
        have hrange := isHighSurrogate_iff.1 hbad
        omega)

/-! The integers that are read are as short as their literals. -/

theorem ofDigitChars_lt {ds : List Char} (h : ∀ d ∈ ds, d.isDigit = true) (m : ℕ) :
    Nat.ofDigitChars 10 ds m < 10 ^ ds.length * (m + 1) := by
  induction ds generalizing m with
  | nil => rw [Nat.ofDigitChars_nil, List.length_nil, Nat.pow_zero, Nat.one_mul]; omega
  | cons d ds ih =>
      have hd : d.toNat ≤ 57 := (Char.isDigit_iff_toNat.1 (h d List.mem_cons_self)).2
      have hzero : '0'.toNat = 48 := rfl
      rw [Nat.ofDigitChars_cons]
      refine lt_of_lt_of_le (ih (fun e he => h e (List.mem_cons_of_mem d he)) _) ?_
      rw [List.length_cons, Nat.pow_succ, Nat.mul_assoc]
      refine Nat.mul_le_mul_left _ ?_
      omega

theorem length_toDigits_le {ds : List Char} (h : ∀ d ∈ ds, d.isDigit = true) (hne : ds ≠ []) :
    (Nat.toDigits 10 (Nat.ofDigitChars 10 ds 0)).length ≤ ds.length := by
  rw [Nat.length_toDigits_le_iff (by decide) (List.length_pos_iff.2 hne)]
  simpa using ofDigitChars_lt h 0

theorem digits_of_scanDigits {text rest ds : List Char} (h : scanDigits text = some (ds, rest)) :
    (∀ d ∈ ds, d.isDigit = true) ∧ ds ≠ [] := by
  cases text with
  | nil => cases h
  | cons c text =>
      rw [scanDigits] at h
      split at h
      · cases h
        exact ⟨fun d hd => by cases List.mem_singleton.1 hd; rfl, List.cons_ne_nil _ _⟩
      split at h
      · next hc =>
          cases h
          refine ⟨fun d hd => ?_, List.cons_ne_nil _ _⟩
          rcases List.mem_cons.1 hd with rfl | hd
          · exact hc
          · exact List.mem_takeWhile_imp hd
      · cases h

theorem wellFormed_of_scanUnsigned {negative : Bool} {text : List Char}
    {r : Json F × List Char} (h : scanUnsigned float negative text = some r) :
    WellFormed (fun _ => True) r.1 := by
  obtain ⟨ds, hds, h⟩ := Option.bind_eq_some_iff.1 h
  obtain ⟨hdigits, hne⟩ := digits_of_scanDigits hds
  simp only at h
  split at h
  · split at h
    · next hlen =>
        cases h
        have hle := (length_toDigits_le hdigits hne).trans hlen
        cases negative with
        | true => simpa [WellFormed] using hle
        | false => simpa [WellFormed] using hle
    · cases h
  · cases h
    exact trivial

theorem WellFormedMembers.setItem {items : List (List ℕ × Json F)} {key : List ℕ} {j : Json F}
    (h : WellFormedMembers P items) (hkey : IsText key) (hj : WellFormed P j) :
    WellFormedMembers P (setItem key j items) := by
  induction items with
  | nil => exact ⟨hkey, hj, trivial⟩
  | cons item items ih =>
      rw [Json.setItem]
      split
      · exact ⟨h.1, hj, h.2.2⟩
      · exact ⟨h.1, h.2.1, ih h.2.2⟩

theorem mem_setItem {items : List (List ℕ × Json F)} {key : List ℕ} {j : Json F}
    {item : List ℕ × Json F} (h : item ∈ setItem key j items) : item = (key, j) ∨ item ∈ items := by
  induction items with
  | nil => exact Or.inl (List.mem_singleton.1 h)
  | cons first items ih =>
      rw [setItem] at h
      split at h
      · next heq =>
          rcases List.mem_cons.1 h with rfl | h
          · exact Or.inl (congrArg (·, j) heq)
          · exact Or.inr (List.mem_cons_of_mem first h)
      · rcases List.mem_cons.1 h with rfl | h
        · exact Or.inr List.mem_cons_self
        · exact (ih h).imp id (List.mem_cons_of_mem first)

theorem mem_keys_setItem {items : List (List ℕ × Json F)} {key k : List ℕ} {j : Json F} :
    k ∈ (setItem key j items).map Prod.fst ↔ k = key ∨ k ∈ items.map Prod.fst := by
  induction items with
  | nil => simp [setItem]
  | cons item items ih =>
      rw [setItem]
      split
      · next heq => simp [heq]
      · rw [List.map_cons, List.mem_cons, ih, List.map_cons, List.mem_cons]
        exact or_left_comm

theorem nodup_setItem {items : List (List ℕ × Json F)} {key : List ℕ} {j : Json F}
    (h : (items.map Prod.fst).Nodup) : ((setItem key j items).map Prod.fst).Nodup := by
  induction items with
  | nil => simp [setItem]
  | cons item items ih =>
      obtain ⟨hnotin, hrest⟩ := List.nodup_cons.1 h
      rw [setItem]
      split
      · exact h
      · next hne =>
          refine List.nodup_cons.2 ⟨fun hmem => ?_, ih hrest⟩
          rcases mem_keys_setItem.1 hmem with heq | hmem
          · exact hne heq
          · exact hnotin hmem

/-- Whatever is scanned is well formed: `n` bounds the calls that are nested. -/
theorem wellFormed_of_scan (float : List Char → F) (n : ℕ) :
    (∀ text r, scanValue float n text = some r → WellFormed (fun _ => True) r.1) ∧
      (∀ text r, scanItems float n text = some r → WellFormedItems (fun _ => True) r.1) ∧
      ∀ items text r, scanMembers float n items text = some r →
        (items.map Prod.fst).Nodup → WellFormedMembers (fun _ => True) items →
          (r.1.map Prod.fst).Nodup ∧ WellFormedMembers (fun _ => True) r.1 := by
  induction n with
  | zero =>
      refine ⟨?_, ?_, ?_⟩
      · intro text r h
        cases h
      · intro text r h
        cases h
      · intro items text r h
        cases h
  | succ n ih =>
      obtain ⟨ihvalue, ihitems, ihmembers⟩ := ih
      refine ⟨?_, ?_, ?_⟩
      · intro text r h
        unfold scanValue at h
        split at h
        · obtain ⟨s, hs, rfl⟩ := Option.map_eq_some_iff.1 h
          exact isText_of_scanString hs
        · split at h
          · cases h
            exact ⟨List.nodup_nil, trivial⟩
          · obtain ⟨items, hitems, rfl⟩ := Option.map_eq_some_iff.1 h
            exact ihmembers _ _ _ hitems List.nodup_nil trivial
        · split at h
          · cases h
            exact trivial
          · obtain ⟨items, hitems, rfl⟩ := Option.map_eq_some_iff.1 h
            exact ihitems _ _ hitems
        · cases h; exact trivial
        · cases h; exact trivial
        · cases h; exact trivial
        · cases h; exact trivial
        · cases h; exact trivial
        · cases h; exact trivial
        · exact wellFormed_of_scanUnsigned h
        · exact wellFormed_of_scanUnsigned h
      · intro text r h
        obtain ⟨v, hv, h⟩ := Option.bind_eq_some_iff.1 h
        split at h
        · cases h
          exact ⟨ihvalue _ _ hv, trivial⟩
        · obtain ⟨items, hitems, rfl⟩ := Option.map_eq_some_iff.1 h
          exact ⟨ihvalue _ _ hv, ihitems _ _ hitems⟩
        · cases h
      · intro items text r h hnodup hwell
        unfold scanMembers at h
        split at h
        · obtain ⟨key, hkey, h⟩ := Option.bind_eq_some_iff.1 h
          split at h
          · obtain ⟨v, hv, h⟩ := Option.bind_eq_some_iff.1 h
            have hset := hwell.setItem (isText_of_scanString hkey) (ihvalue _ _ hv)
            split at h
            · cases h
              exact ⟨nodup_setItem hnodup, hset⟩
            · exact ihmembers _ _ _ h (nodup_setItem hnodup) hset
            · cases h
          · cases h
        · cases h

/-- What `loads` returns is well formed. -/
theorem wellFormed_of_loads {text : List Char} {j : Json F} (h : loads float text = some j) :
    WellFormed (fun _ => True) j := by
  obtain ⟨-, h⟩ := Option.ite_none_left_eq_some.1 h
  obtain ⟨r, hr, h⟩ := Option.bind_eq_some_iff.1 h
  obtain ⟨-, h⟩ := Option.ite_none_right_eq_some.1 h
  cases h
  exact (wellFormed_of_scan float _).1 _ _ hr

mutual

/-- `dumps` does not raise at a well-formed value. -/
theorem exists_dumps (repr : F → List Char) :
    (j : Json F) → WellFormed P j → ∃ text, dumps repr j = some text
  | .null, _ => ⟨_, rfl⟩
  | .bool _, _ => ⟨_, rfl⟩
  | .int _, hj => ⟨_, if_pos hj⟩
  | .float _, _ => ⟨_, rfl⟩
  | .str _, _ => ⟨_, rfl⟩
  | .list items, hj => by
      obtain ⟨text, htext⟩ := exists_dumpsItems repr items hj
      exact ⟨_, Option.map_eq_some_iff.2 ⟨text, htext, rfl⟩⟩
  | .dict items, hj => by
      obtain ⟨text, htext⟩ := exists_dumpsMembers repr items hj.2
      exact ⟨_, Option.map_eq_some_iff.2 ⟨text, htext, rfl⟩⟩

theorem exists_dumpsItems (repr : F → List Char) :
    (items : List (Json F)) → WellFormedItems P items → ∃ text, dumpsItems repr items = some text
  | [], _ => ⟨_, rfl⟩
  | [j], hj => exists_dumps repr j hj.1
  | j :: k :: items, hj => by
      obtain ⟨text, htext⟩ := exists_dumps repr j hj.1
      obtain ⟨texts, htexts⟩ := exists_dumpsItems repr (k :: items) hj.2
      exact ⟨_, Option.bind_eq_some_iff.2
        ⟨text, htext, Option.bind_eq_some_iff.2 ⟨texts, htexts, rfl⟩⟩⟩

theorem exists_dumpsMembers (repr : F → List Char) :
    (items : List (List ℕ × Json F)) → WellFormedMembers P items →
      ∃ text, dumpsMembers repr items = some text
  | [], _ => ⟨_, rfl⟩
  | [(_, j)], hj => by
      obtain ⟨text, htext⟩ := exists_dumps repr j hj.2.1
      exact ⟨_, Option.bind_eq_some_iff.2 ⟨text, htext, rfl⟩⟩
  | (_, j) :: item :: items, hj => by
      obtain ⟨text, htext⟩ := exists_dumps repr j hj.2.1
      obtain ⟨texts, htexts⟩ := exists_dumpsMembers repr (item :: items) hj.2.2
      exact ⟨_, Option.bind_eq_some_iff.2
        ⟨text, htext, Option.bind_eq_some_iff.2 ⟨texts, htexts, rfl⟩⟩⟩

end

/-! ## The bound on the nesting -/

theorem length_skip_le (text : List Char) : (skip text).length ≤ text.length :=
  List.length_dropWhile_le _ text

theorem scanString_shorter {text : List Char} {r : List ℕ × List Char}
    (h : scanString text = some r) : r.2.length < text.length := by
  fun_induction scanString text generalizing r with
  | case1 => cases h
  | case2 => cases h; exact Nat.lt_succ_self _
  | case3 a b c d text ih =>
      obtain ⟨n, -, h⟩ := Option.bind_eq_some_iff.1 h
      obtain ⟨t, ht, rfl⟩ := Option.map_eq_some_iff.1 h
      have hlt := ih ht
      simp only [List.length_cons]
      omega
  | case4 c text _ ih =>
      obtain ⟨n, -, h⟩ := Option.bind_eq_some_iff.1 h
      obtain ⟨t, ht, rfl⟩ := Option.map_eq_some_iff.1 h
      have hlt := ih ht
      simp only [List.length_cons]
      omega
  | case5 c text hcontrol => cases h
  | case6 c text _ _ _ _ ih =>
      obtain ⟨t, ht, rfl⟩ := Option.map_eq_some_iff.1 h
      have hlt := ih ht
      exact lt_trans hlt (Nat.lt_succ_self _)

theorem scanFraction_le (text : List Char) : (scanFraction text).2.length ≤ text.length := by
  unfold scanFraction
  split
  · next rest =>
      split
      · exact le_rfl
      · exact (List.length_dropWhile_le _ rest).trans (Nat.le_succ _)
  · exact le_rfl

theorem scanExponent_le (text : List Char) : (scanExponent text).2.length ≤ text.length := by
  have hsign : ∀ rest, (scanSign rest).2.length ≤ rest.length := by
    intro rest
    unfold scanSign
    split
    · exact Nat.le_succ _
    · exact Nat.le_succ _
    · exact le_rfl
  unfold scanExponent
  split
  · exact le_rfl
  · next c rest =>
      split
      · exact ((List.length_dropWhile_le _ _).trans (hsign rest)).trans (Nat.le_succ _)
      · exact le_rfl

theorem scanUnsigned_shorter {negative : Bool} {text : List Char} {r : Json F × List Char}
    (h : scanUnsigned float negative text = some r) : r.2.length < text.length := by
  obtain ⟨⟨ds, rest⟩, hds, h⟩ := Option.bind_eq_some_iff.1 h
  have hdigits : rest.length < text.length := by
    cases text with
    | nil => cases hds
    | cons c text =>
        rw [scanDigits] at hds
        split at hds
        · cases hds
          exact Nat.lt_succ_self _
        split at hds
        · cases hds
          exact Nat.lt_succ_of_le (List.length_dropWhile_le _ text)
        · cases hds
  have hle := (scanExponent_le (scanFraction rest).2).trans (scanFraction_le rest)
  simp only at h
  split at h
  · split at h
    · cases h
      exact lt_of_le_of_lt hle hdigits
    · cases h
  · cases h
    exact lt_of_le_of_lt hle hdigits

theorem scan_shorter (float : List Char → F) (n : ℕ) :
    (∀ text r, scanValue float n text = some r → r.2.length < text.length) ∧
      (∀ text r, scanItems float n text = some r → r.2.length < text.length) ∧
      ∀ items text r, scanMembers float n items text = some r → r.2.length < text.length := by
  induction n with
  | zero =>
      refine ⟨?_, ?_, ?_⟩
      · intro text r h
        cases h
      · intro text r h
        cases h
      · intro items text r h
        cases h
  | succ n ih =>
      obtain ⟨ihvalue, ihitems, ihmembers⟩ := ih
      refine ⟨?_, ?_, ?_⟩
      · intro text r h
        unfold scanValue at h
        split at h
        · obtain ⟨s, hs, rfl⟩ := Option.map_eq_some_iff.1 h
          exact lt_trans (scanString_shorter hs) (Nat.lt_succ_self _)
        · next rest =>
            have hskip := length_skip_le rest
            rw [List.length_cons]
            split at h
            · next heq =>
                cases h
                rw [heq, List.length_cons] at hskip
                dsimp only
                omega
            · obtain ⟨items, hitems, rfl⟩ := Option.map_eq_some_iff.1 h
              have hlt := ihmembers _ _ _ hitems
              dsimp only
              omega
        · next rest =>
            have hskip := length_skip_le rest
            rw [List.length_cons]
            split at h
            · next heq =>
                cases h
                rw [heq, List.length_cons] at hskip
                dsimp only
                omega
            · obtain ⟨items, hitems, rfl⟩ := Option.map_eq_some_iff.1 h
              have hlt := ihitems _ _ hitems
              dsimp only
              omega
        · cases h; simp only [List.length_cons]; omega
        · cases h; simp only [List.length_cons]; omega
        · cases h; simp only [List.length_cons]; omega
        · cases h; simp only [List.length_cons]; omega
        · cases h; simp only [List.length_cons]; omega
        · cases h; simp only [List.length_cons]; omega
        · exact lt_trans (scanUnsigned_shorter h) (Nat.lt_succ_self _)
        · exact scanUnsigned_shorter h
      · intro text r h
        obtain ⟨v, hv, h⟩ := Option.bind_eq_some_iff.1 h
        have hvalue := ihvalue _ _ hv
        have hskip := length_skip_le v.2
        split at h
        · next heq =>
            cases h
            rw [heq, List.length_cons] at hskip
            dsimp only
            omega
        · next rest heq =>
            obtain ⟨items, hitems, rfl⟩ := Option.map_eq_some_iff.1 h
            have hlt := ihitems _ _ hitems
            have hnext := length_skip_le rest
            rw [heq, List.length_cons] at hskip
            dsimp only
            omega
        · cases h
      · intro items text r h
        unfold scanMembers at h
        split at h
        · next rest =>
            obtain ⟨key, hkey, h⟩ := Option.bind_eq_some_iff.1 h
            have hlt := scanString_shorter hkey
            have hskip := length_skip_le key.2
            rw [List.length_cons]
            split at h
            · next rest' heq =>
                rw [heq, List.length_cons] at hskip
                obtain ⟨v, hv, h⟩ := Option.bind_eq_some_iff.1 h
                have hvalue := ihvalue _ _ hv
                have hcolon := length_skip_le rest'
                have hskip' := length_skip_le v.2
                split at h
                · next heq' =>
                    cases h
                    rw [heq', List.length_cons] at hskip'
                    dsimp only
                    omega
                · next rest'' heq' =>
                    have hrest := ihmembers _ _ _ h
                    have hnext := length_skip_le rest''
                    rw [heq', List.length_cons] at hskip'
                    omega
                · cases h
            · cases h
        · cases h

/-- More calls than twice the length of the text change nothing. -/
theorem scan_of_le (float : List Char → F) (n : ℕ) :
    ∀ m, n ≤ m →
      (∀ text, 2 * text.length ≤ n → scanValue float m text = scanValue float n text) ∧
      (∀ text, 2 * text.length + 1 ≤ n → scanItems float m text = scanItems float n text) ∧
      ∀ items text, 2 * text.length + 1 ≤ n →
        scanMembers float m items text = scanMembers float n items text := by
  induction n with
  | zero =>
      intro m _
      refine ⟨?_, ?_, ?_⟩
      · intro text htext
        obtain rfl : text = [] := List.length_eq_zero_iff.1 (by omega)
        cases m <;> rfl
      · intro text htext
        omega
      · intro items text htext
        omega
  | succ n ih =>
      intro m hm
      obtain ⟨m, rfl⟩ : ∃ k, m = k + 1 := ⟨m - 1, by omega⟩
      obtain ⟨ihvalue, ihitems, ihmembers⟩ := ih m (by omega)
      refine ⟨?_, ?_, ?_⟩
      · intro text htext
        unfold scanValue
        split
        · rfl
        · next rest =>
            have hskip := length_skip_le rest
            rw [List.length_cons] at htext
            split
            · rfl
            · rw [ihmembers _ _ (by omega)]
        · next rest =>
            have hskip := length_skip_le rest
            rw [List.length_cons] at htext
            split
            · rfl
            · rw [ihitems _ (by omega)]
        all_goals rfl
      · intro text htext
        unfold scanItems
        rw [ihvalue _ (by omega)]
        refine Option.bind_congr fun v hv => ?_
        have hlt := (scan_shorter float n).1 _ _ hv
        have hskip := length_skip_le v.2
        split
        · rfl
        · next rest heq =>
            have hnext := length_skip_le rest
            rw [heq, List.length_cons] at hskip
            rw [ihitems _ (by omega)]
        · rfl
      · intro items text htext
        unfold scanMembers
        split
        · next rest =>
            rw [List.length_cons] at htext
            refine Option.bind_congr fun key hkey => ?_
            have hlt := scanString_shorter hkey
            have hskip := length_skip_le key.2
            split
            · next rest' heq =>
                have hcolon := length_skip_le rest'
                rw [heq, List.length_cons] at hskip
                rw [ihvalue _ (by omega)]
                refine Option.bind_congr fun v hv => ?_
                have hvalue := (scan_shorter float n).1 _ _ hv
                have hskip' := length_skip_le v.2
                split
                · rfl
                · next rest'' heq' =>
                    have hnext := length_skip_le rest''
                    rw [heq', List.length_cons] at hskip'
                    rw [ihmembers _ _ (by omega)]
                · rfl
            · rfl
        · rfl

/-- `loads` nests deep enough: any larger bound reads the same. -/
theorem loads_eq_of_le {text : List Char} {n : ℕ} (hn : 2 * text.length + 1 ≤ n) :
    loads float text =
      if text.head? = some (Char.ofNat 0xFEFF) then none
      else
        (scanValue float n (skip text)).bind fun r => if skip r.2 = [] then some r.1 else none := by
  have hskip := length_skip_le text
  rw [loads, ((scan_of_le float (2 * text.length + 1) n hn).1 (skip text) (by omega))]

end Read

end Json
