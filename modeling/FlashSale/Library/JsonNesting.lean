import FlashSale.Library.JsonRoundTrip

/-!
# The limit on nested values

`loads` and `dumps` call themselves for a list or a dict in another one, and Python
lets only so many calls nest before it raises. `loadsWithin` and `dumpsWithin` are the
two with such a limit: what counts for `loads` are the brackets of the text that are
open at once outside its string literals, also those of a value that a later item of
the same key replaces, and for `dumps` the depth of the value.

A value that is not nested too deeply is read back (`loadsWithin_dumps`).
-/

namespace Json

variable {F : Type}

/-! ## Depth -/

mutual

/-- How deep lists and dicts are nested in the value. -/
def depth : Json F → ℕ
  | list items => depthItems items + 1
  | dict items => depthMembers items + 1
  | _ => 0

def depthItems : List (Json F) → ℕ
  | [] => 0
  | j :: items => max j.depth (depthItems items)

def depthMembers : List (List ℕ × Json F) → ℕ
  | [] => 0
  | (_, j) :: items => max j.depth (depthMembers items)

end

/-- Where a text is read: outside of the string literals, in one, or in one behind a
backslash. -/
inductive Place
  | outside
  | quoted
  | escaped

/-- The deepest bracket that a text opens, where `depth` brackets are open. -/
def nesting : Place → ℕ → List Char → ℕ
  | _, _, [] => 0
  | .outside, depth, c :: rest =>
      if c = '"' then nesting .quoted depth rest
      else if c = '[' ∨ c = '{' then max (depth + 1) (nesting .outside (depth + 1) rest)
      else if c = ']' ∨ c = '}' then nesting .outside (depth - 1) rest
      else nesting .outside depth rest
  | .quoted, depth, c :: rest =>
      if c = '"' then nesting .outside depth rest
      else if c = '\\' then nesting .escaped depth rest
      else nesting .quoted depth rest
  | .escaped, depth, _ :: rest => nesting .quoted depth rest

/-- `loads`, where at most `limit` calls for lists and dicts may nest. -/
def loadsWithin (limit : ℕ) (float : List Char → F) (text : List Char) : Option (Json F) :=
  if nesting .outside 0 text ≤ limit then loads float text else none

/-- `dumps`, where at most `limit` calls for lists and dicts may nest. -/
def dumpsWithin (limit : ℕ) (repr : F → List Char) (j : Json F) : Option (List Char) :=
  if j.depth ≤ limit then dumps repr j else none

/-! ## The nesting of what is written -/

/-- Outside of a string literal, the character is neither a quote nor a bracket. -/
def Unbracketed (c : Char) : Prop := c ≠ '"' ∧ c ≠ '[' ∧ c ≠ '{' ∧ c ≠ ']' ∧ c ≠ '}'

instance (c : Char) : Decidable (Unbracketed c) := inferInstanceAs (Decidable (_ ∧ _))

theorem nesting_unbracketed {text : List Char} (h : ∀ c ∈ text, Unbracketed c) (d : ℕ)
    (rest : List Char) : nesting .outside d (text ++ rest) = nesting .outside d rest := by
  induction text with
  | nil => rfl
  | cons c text ih =>
      obtain ⟨hquote, hlist, hdict, hlist', hdict'⟩ := h c List.mem_cons_self
      rw [List.cons_append, nesting, if_neg hquote, if_neg (not_or.2 ⟨hlist, hdict⟩),
        if_neg (not_or.2 ⟨hlist', hdict'⟩)]
      exact ih fun e he => h e (List.mem_cons_of_mem c he)

theorem nesting_quoted {c : Char} (hquote : c ≠ '"') (hslash : c ≠ '\\') (d : ℕ)
    (rest : List Char) : nesting .quoted d (c :: rest) = nesting .quoted d rest := by
  rw [nesting, if_neg hquote, if_neg hslash]

theorem nesting_digitChar {n : ℕ} (h : n < 16) (d : ℕ) (rest : List Char) :
    nesting .quoted d (Nat.digitChar n :: rest) = nesting .quoted d rest := by
  have hne : Nat.digitChar n ≠ '"' ∧ Nat.digitChar n ≠ '\\' := by
    interval_cases n <;> decide
  exact nesting_quoted hne.1 hne.2 d rest

theorem nesting_unicodeEscape (n d : ℕ) (rest : List Char) :
    nesting .quoted d (unicodeEscape n ++ rest) = nesting .quoted d rest := by
  have hlt : ∀ m, m % 16 < 16 := fun m => Nat.mod_lt m (by decide)
  change nesting .quoted d (Nat.digitChar _ :: Nat.digitChar _ :: Nat.digitChar _ ::
    Nat.digitChar _ :: rest) = _
  rw [nesting_digitChar (hlt _), nesting_digitChar (hlt _), nesting_digitChar (hlt _),
    nesting_digitChar (hlt _)]

/-- An escaped code point does not end its string literal. -/
theorem nesting_escape (n d : ℕ) (rest : List Char) :
    nesting .quoted d (escape n ++ rest) = nesting .quoted d rest := by
  rw [escape]
  split
  · rfl
  split
  · rfl
  split
  · rfl
  split
  · rfl
  split
  · rfl
  split
  · rfl
  split
  · rfl
  split
  · next hquote hslash _ _ _ _ _ hprintable =>
      have hnat : (Char.ofNat n).toNat = n := toNat_ofNat (Or.inl (by omega))
      have hne : ∀ c : Char, n ≠ c.toNat → Char.ofNat n ≠ c := by
        rintro c hc rfl
        exact hc hnat.symm
      exact nesting_quoted (hne '"' hquote) (hne '\\' hslash) d rest
  split
  · exact nesting_unicodeEscape n d rest
  · rw [List.append_assoc, nesting_unicodeEscape, nesting_unicodeEscape]

theorem nesting_quote (s : List ℕ) (d : ℕ) (rest : List Char) :
    nesting .outside d (quote s ++ rest) = nesting .outside d rest := by
  have hbody : nesting .quoted d (s.flatMap escape ++ '"' :: rest) = nesting .outside d rest := by
    induction s with
    | nil => rfl
    | cons n s ih => rw [List.flatMap_cons, List.append_assoc, nesting_escape, ih]
  rw [quote_append]
  exact hbody

theorem unbracketed_reprInt {n : ℤ} {text : List Char} (h : reprInt n = some text) :
    ∀ c ∈ text, Unbracketed c := by
  obtain ⟨-, heq⟩ := Option.ite_none_right_eq_some.1 h
  have hdigits : ∀ c ∈ Nat.toDigits 10 n.natAbs, Unbracketed c := by
    intro c hc
    have hdigit := Nat.isDigit_of_mem_toDigits (by decide) (by decide) hc
    rcases digit_cases hdigit with rfl | rfl | rfl | rfl | rfl | rfl | rfl | rfl | rfl | rfl <;>
      decide
  split at heq
  · cases heq
    intro c hc
    rcases List.mem_cons.1 hc with rfl | hc
    · decide
    · exact hdigits c hc
  · cases heq
    exact hdigits

section Write

variable {P : F → Prop} {repr : F → List Char}

mutual

/-- The text of a value opens no bracket deeper than the value is. -/
theorem nesting_dumps (hrepr : ∀ x, P x → ∀ c ∈ repr x, Unbracketed c) (d : ℕ)
    (rest : List Char) : (j : Json F) → {text : List Char} → WellFormed P j →
      dumps repr j = some text →
      nesting .outside d (text ++ rest) ≤ max (d + j.depth) (nesting .outside d rest)
  | .null, _, _, h => by
      cases h
      exact le_max_right _ _
  | .bool b, _, _, h => by
      cases h
      cases b
      · exact le_max_right _ _
      · exact le_max_right _ _
  | .int _, _, _, h => by
      rw [nesting_unbracketed (unbracketed_reprInt h)]
      exact le_max_right _ _
  | .float x, _, hj, h => by
      cases h
      rw [nesting_unbracketed (hrepr x hj)]
      exact le_max_right _ _
  | .str s, _, _, h => by
      cases h
      rw [nesting_quote]
      exact le_max_right _ _
  | .list items, _, hj, h => by
      obtain ⟨text, htext, rfl⟩ := Option.map_eq_some_iff.1 h
      have hitems := nesting_dumpsItems hrepr (d + 1) (']' :: rest) items hj htext
      have hopen : nesting .outside d ('[' :: (text ++ [']']) ++ rest) =
          max (d + 1) (nesting .outside (d + 1) (text ++ ']' :: rest)) := by
        rw [List.cons_append, List.append_assoc]
        rfl
      have hclose : nesting .outside (d + 1) (']' :: rest) = nesting .outside d rest := rfl
      rw [hopen, depth]
      omega
  | .dict items, _, hj, h => by
      obtain ⟨text, htext, rfl⟩ := Option.map_eq_some_iff.1 h
      have hitems := nesting_dumpsMembers hrepr (d + 1) ('}' :: rest) items hj.2 htext
      have hopen : nesting .outside d ('{' :: (text ++ ['}']) ++ rest) =
          max (d + 1) (nesting .outside (d + 1) (text ++ '}' :: rest)) := by
        rw [List.cons_append, List.append_assoc]
        rfl
      have hclose : nesting .outside (d + 1) ('}' :: rest) = nesting .outside d rest := rfl
      rw [hopen, depth]
      omega

theorem nesting_dumpsItems (hrepr : ∀ x, P x → ∀ c ∈ repr x, Unbracketed c) (d : ℕ)
    (rest : List Char) : (items : List (Json F)) → {text : List Char} →
      WellFormedItems P items → dumpsItems repr items = some text →
      nesting .outside d (text ++ rest) ≤
        max (d + depthItems items) (nesting .outside d rest)
  | [], _, _, h => by
      cases h
      exact le_max_right _ _
  | [j], _, hj, h => by
      have hvalue := nesting_dumps hrepr d rest j hj.1 h
      rw [depthItems, depthItems]
      omega
  | j :: k :: items, _, hj, h => by
      obtain ⟨text, htext, h⟩ := Option.bind_eq_some_iff.1 h
      obtain ⟨texts, htexts, h⟩ := Option.bind_eq_some_iff.1 h
      cases h
      have hvalue := nesting_dumps hrepr d (',' :: ' ' :: (texts ++ rest)) j hj.1 htext
      have hitems := nesting_dumpsItems hrepr d rest (k :: items) hj.2 htexts
      have hcomma : nesting .outside d (',' :: ' ' :: (texts ++ rest)) =
          nesting .outside d (texts ++ rest) := rfl
      rw [List.append_assoc, depthItems]
      change nesting .outside d (text ++ ',' :: ' ' :: (texts ++ rest)) ≤ _
      omega

theorem nesting_dumpsMembers (hrepr : ∀ x, P x → ∀ c ∈ repr x, Unbracketed c) (d : ℕ)
    (rest : List Char) : (items : List (List ℕ × Json F)) → {text : List Char} →
      WellFormedMembers P items → dumpsMembers repr items = some text →
      nesting .outside d (text ++ rest) ≤
        max (d + depthMembers items) (nesting .outside d rest)
  | [], _, _, h => by
      cases h
      exact le_max_right _ _
  | [(key, j)], _, hj, h => by
      obtain ⟨text, htext, h⟩ := Option.bind_eq_some_iff.1 h
      cases h
      have hvalue := nesting_dumps hrepr d rest j hj.2.1 htext
      have hcolon : nesting .outside d (':' :: ' ' :: (text ++ rest)) =
          nesting .outside d (text ++ rest) := rfl
      rw [List.append_assoc, nesting_quote, depthMembers, depthMembers]
      change nesting .outside d (':' :: ' ' :: (text ++ rest)) ≤ _
      omega
  | (key, j) :: item :: items, _, hj, h => by
      obtain ⟨text, htext, h⟩ := Option.bind_eq_some_iff.1 h
      obtain ⟨texts, htexts, h⟩ := Option.bind_eq_some_iff.1 h
      cases h
      have hvalue := nesting_dumps hrepr d (',' :: ' ' :: (texts ++ rest)) j hj.2.1 htext
      have hitems := nesting_dumpsMembers hrepr d rest (item :: items) hj.2.2 htexts
      have hcolon : nesting .outside d (':' :: ' ' :: (text ++ ',' :: ' ' :: (texts ++ rest))) =
          nesting .outside d (text ++ ',' :: ' ' :: (texts ++ rest)) := rfl
      have hcomma : nesting .outside d (',' :: ' ' :: (texts ++ rest)) =
          nesting .outside d (texts ++ rest) := rfl
      rw [List.append_assoc, nesting_quote, depthMembers, List.cons_append, List.cons_append,
        List.append_assoc]
      change nesting .outside d (':' :: ' ' :: (text ++ ',' :: ' ' :: (texts ++ rest))) ≤ _
      omega

end

/-- What `dumps` has written of a value that is not nested too deeply, `loads` reads back. -/
theorem loadsWithin_dumps {float : List Char → F} (hP : ∀ x, P x → ReadsBack float repr x)
    (hrepr : ∀ x, P x → ∀ c ∈ repr x, Unbracketed c) {limit : ℕ} {j : Json F}
    {text : List Char} (hj : WellFormed P j) (hdepth : j.depth ≤ limit)
    (h : dumps repr j = some text) : loadsWithin limit float text = some j := by
  have hnesting := nesting_dumps hrepr 0 [] j hj h
  rw [List.append_nil] at hnesting
  have hnil : nesting .outside 0 [] = 0 := rfl
  rw [loadsWithin, if_pos (by omega)]
  exact loads_dumps hP hj h

end Write

end Json
