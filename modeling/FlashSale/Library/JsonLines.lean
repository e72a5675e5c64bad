import FlashSale.Library.JsonRoundTrip

/-!
# Lines of JSON

`dumps` writes no line break, so values that are written one to a line can be read back
line by line.
-/

namespace Json

variable {F : Type} {repr : F → List Char}

theorem newline_notMem_unicodeEscape (n : ℕ) : '\n' ∉ unicodeEscape n := by
  have hdigit : ∀ d, d < 16 → '\n' ≠ Nat.digitChar d := by
    intro d hd
    interval_cases d <;> decide
  simp [unicodeEscape, hdigit _ (Nat.mod_lt _ (by decide : 0 < 16))]

theorem newline_notMem_escape (n : ℕ) : '\n' ∉ escape n := by
  unfold escape
  split
  · decide
  split
  · decide
  split
  · decide
  split
  · decide
  split
  · decide
  split
  · decide
  split
  · decide
  split
  · next hprintable =>
      rw [List.mem_singleton]
      intro heq
      have hnat : (Char.ofNat n).toNat = n := toNat_ofNat (Or.inl (by omega))
      rw [← heq] at hnat
      have hten : '\n'.toNat = 10 := rfl
      omega
  split
  · exact newline_notMem_unicodeEscape n
  · rw [List.mem_append]
    exact not_or.2 ⟨newline_notMem_unicodeEscape _, newline_notMem_unicodeEscape _⟩

theorem newline_notMem_quote (s : List ℕ) : '\n' ∉ quote s := by
  simp [quote, newline_notMem_escape]

theorem newline_notMem_reprInt {n : ℤ} {text : List Char} (h : reprInt n = some text) :
    '\n' ∉ text := by
  have hdigits : '\n' ∉ Nat.toDigits 10 n.natAbs := by
    intro hmem
    cases Nat.isDigit_of_mem_toDigits (by decide) (by decide) hmem
  obtain ⟨-, heq⟩ := Option.ite_none_right_eq_some.1 h
  cases heq
  split
  · simp [hdigits]
  · exact hdigits

mutual

/-- The text of a value is one line. -/
theorem newline_notMem_dumps (hrepr : ∀ x, '\n' ∉ repr x) :
    (j : Json F) → {text : List Char} → dumps repr j = some text → '\n' ∉ text
  | .null, _, h => by cases h; decide
  | .bool b, _, h => by cases h; cases b <;> decide
  | .int _, _, h => newline_notMem_reprInt h
  | .float x, _, h => by cases h; exact hrepr x
  | .str s, _, h => by cases h; exact newline_notMem_quote s
  | .list items, _, h => by
      obtain ⟨text, htext, rfl⟩ := Option.map_eq_some_iff.1 h
      simp [newline_notMem_dumpsItems hrepr items htext]
  | .dict items, _, h => by
      obtain ⟨text, htext, rfl⟩ := Option.map_eq_some_iff.1 h
      simp [newline_notMem_dumpsMembers hrepr items htext]

theorem newline_notMem_dumpsItems (hrepr : ∀ x, '\n' ∉ repr x) :
    (items : List (Json F)) → {text : List Char} → dumpsItems repr items = some text →
      '\n' ∉ text
  | [], _, h => by cases h; decide
  | [j], _, h => newline_notMem_dumps hrepr j h
  | j :: k :: items, _, h => by
      obtain ⟨text, htext, h⟩ := Option.bind_eq_some_iff.1 h
      obtain ⟨texts, htexts, h⟩ := Option.bind_eq_some_iff.1 h
      cases h
      simp [newline_notMem_dumps hrepr j htext, newline_notMem_dumpsItems hrepr (k :: items) htexts]

theorem newline_notMem_dumpsMembers (hrepr : ∀ x, '\n' ∉ repr x) :
    (items : List (List ℕ × Json F)) → {text : List Char} →
      dumpsMembers repr items = some text → '\n' ∉ text
  | [], _, h => by cases h; decide
  | [(key, j)], _, h => by
      obtain ⟨text, htext, h⟩ := Option.bind_eq_some_iff.1 h
      cases h
      simp [newline_notMem_quote key, newline_notMem_dumps hrepr j htext]
  | (key, j) :: item :: items, _, h => by
      obtain ⟨text, htext, h⟩ := Option.bind_eq_some_iff.1 h
      obtain ⟨texts, htexts, h⟩ := Option.bind_eq_some_iff.1 h
      cases h
      simp [newline_notMem_quote key, newline_notMem_dumps hrepr j htext,
        newline_notMem_dumpsMembers hrepr (item :: items) htexts]

end

/-- The values of the lines of a text. -/
def loadsLines (float : List Char → F) (text : List Char) : List (Option (Json F)) :=
  (text.splitOn '\n').map (loads float)

/-- Each value is read back from its line. -/
theorem loads_lines {float : List Char → F} {P : F → Prop}
    (hP : ∀ x, P x → ReadsBack float repr x) (hrepr : ∀ x, '\n' ∉ repr x)
    {values : List (Json F)} {lines : List (List Char)}
    (hvalues : ∀ j ∈ values, ∀ {text}, dumps repr j = some text → WellFormed P j)
    (h : values.mapM (dumps repr) = some lines) :
    lines.map (loads float) = values.map some ∧ ∀ line ∈ lines, '\n' ∉ line := by
  induction values generalizing lines with
  | nil =>
      cases h
      exact ⟨rfl, fun _ hline => (List.not_mem_nil hline).elim⟩
  | cons j values ih =>
      rw [List.mapM_cons] at h
      obtain ⟨line, hline, h⟩ := Option.bind_eq_some_iff.1 h
      obtain ⟨rest, hrest, h⟩ := Option.bind_eq_some_iff.1 h
      cases h
      obtain ⟨hloads, hlines⟩ := ih (fun k hk => hvalues k (List.mem_cons_of_mem j hk)) hrest
      refine ⟨?_, fun l hl => ?_⟩
      · rw [List.map_cons, List.map_cons, hloads,
          loads_dumps hP (hvalues j List.mem_cons_self hline) hline]
      · rcases List.mem_cons.1 hl with rfl | hl
        · exact newline_notMem_dumps hrepr j hline
        · exact hlines l hl

/-- Values that were written to lines are read back in their order. -/
theorem loadsLines_intercalate {float : List Char → F} {P : F → Prop}
    (hP : ∀ x, P x → ReadsBack float repr x) (hrepr : ∀ x, '\n' ∉ repr x)
    {values : List (Json F)} {lines : List (List Char)}
    (hvalues : ∀ j ∈ values, ∀ {text}, dumps repr j = some text → WellFormed P j)
    (hne : values ≠ []) (h : values.mapM (dumps repr) = some lines) :
    loadsLines float (['\n'].intercalate lines) = values.map some := by
  obtain ⟨hloads, hlines⟩ := loads_lines hP hrepr hvalues h
  have hnonempty : lines ≠ [] := by
    rintro rfl
    cases values with
    | nil => exact hne rfl
    | cons j values => cases hloads
  rw [loadsLines, List.splitOn_intercalate '\n' hlines hnonempty, hloads]

end Json
