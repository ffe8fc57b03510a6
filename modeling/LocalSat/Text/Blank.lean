import LocalSat.Text.Split

/-!
# Blank characters

The characters that count as blank between words, `strip`, which takes them off both ends of a text,
and `words`, the blank-free runs. Main statements: a stripped text neither starts nor ends with a blank
(`head_strip`, `getLast_strip`), a word is non-empty and blank-free (`isWord_of_mem_words`), and words
joined by blanks are the words of what they make (`words_intercalate`).
-/

namespace LocalSat.Text

/-- White space and the separator controls of Unicode: the horizontal and vertical tabs, the line and
page ends, the four information separators, and every space from U+0020 to the ideographic one. The
zero-width space and the byte order mark are not blank. -/
def isBlank (c : Char) : Bool :=
  let n := c.toNat
  (9 ≤ n && n ≤ 13) || (28 ≤ n && n ≤ 32) || n == 0x85 || n == 0xa0 || n == 0x1680
    || (0x2000 ≤ n && n ≤ 0x200a) || n == 0x2028 || n == 0x2029 || n == 0x202f || n == 0x205f
    || n == 0x3000

/-- The text without the blanks at its two ends. -/
def strip (cs : List Char) : List Char :=
  ((cs.dropWhile isBlank).reverse.dropWhile isBlank).reverse

/-- The maximal blank-free runs of a text, in order. -/
def words (cs : List Char) : List (List Char) :=
  (pieces isBlank cs).filter (!·.isEmpty)

/-- Not empty, and without a blank. -/
def IsWord (w : List Char) : Prop := w ≠ [] ∧ ∀ c ∈ w, isBlank c = false

/-- The stripped text. -/
def stripped (text : String) : String :=
  String.ofList (strip text.toList)

/-! ## What remains -/

theorem isBlank_head_dropWhile {cs : List Char} {c : Char} {r : List Char}
    (h : cs.dropWhile isBlank = c :: r) : isBlank c = false := by
  induction cs with
  | nil => simp at h
  | cons d ds ih =>
    rw [List.dropWhile_cons] at h
    split at h
    · exact ih h
    · rename_i hd; cases h; simpa using hd

theorem head_strip {cs r : List Char} {c : Char} (h : strip cs = c :: r) : isBlank c = false := by
  have hp : strip cs <+: cs.dropWhile isBlank := by
    have hs := List.dropWhile_suffix (l := (cs.dropWhile isBlank).reverse) isBlank
    rw [← List.reverse_prefix] at hs
    simpa [strip] using hs
  obtain ⟨t, ht⟩ := h ▸ hp
  exact isBlank_head_dropWhile ht.symm

theorem getLast_strip {cs : List Char} (h : strip cs ≠ []) :
    isBlank ((strip cs).getLast h) = false := by
  unfold strip at h ⊢
  rw [List.getLast_reverse]
  generalize hr : (cs.dropWhile isBlank).reverse.dropWhile isBlank = r at h ⊢
  cases r with
  | nil => simp at h
  | cons c r => exact isBlank_head_dropWhile hr

/-! ## What is taken off -/

theorem dropWhile_of_head {p : Char → Bool} {cs : List Char} (h : ∀ c ∈ cs.head?, p c = false) :
    cs.dropWhile p = cs := by
  cases cs with
  | nil => rfl
  | cons c cs => exact List.dropWhile_cons_of_neg (by simp [h c rfl])

theorem strip_of_ends {cs : List Char} (hhead : ∀ c ∈ cs.head?, isBlank c = false)
    (hlast : ∀ c ∈ cs.getLast?, isBlank c = false) : strip cs = cs := by
  rw [← List.head?_reverse] at hlast
  rw [strip, dropWhile_of_head hhead, dropWhile_of_head hlast, List.reverse_reverse]

theorem strip_blank_cons {b : Char} {cs : List Char} (hb : isBlank b = true) :
    strip (b :: cs) = strip cs := by
  rw [strip, List.dropWhile_cons_of_pos hb, ← strip]

theorem strip_append_blank {cs bs : List Char} (hb : ∀ b ∈ bs, isBlank b = true) :
    strip (cs ++ bs) = strip cs := by
  have hbs : (bs ++ []).dropWhile isBlank = [].dropWhile isBlank := List.dropWhile_append_of_pos hb
  rw [List.append_nil, List.dropWhile_nil] at hbs
  rw [strip, strip, List.dropWhile_append]
  split <;> rename_i h
  · rw [List.isEmpty_iff.1 h, hbs]
  · rw [List.reverse_append, List.dropWhile_append_of_pos (by simpa using hb)]

theorem mem_of_mem_strip {cs : List Char} {c : Char} (h : c ∈ strip cs) : c ∈ cs := by
  rw [strip, List.mem_reverse] at h
  have h := (List.dropWhile_suffix isBlank).subset h
  rw [List.mem_reverse] at h
  exact (List.dropWhile_suffix isBlank).subset h

/-- What is stripped stays as it is. -/
theorem strip_strip (cs : List Char) : strip (strip cs) = strip cs := by
  refine strip_of_ends (fun c hc => ?_) (fun c hc => ?_)
  · obtain ⟨r, hr⟩ := List.head?_eq_some_iff.1 hc
    exact head_strip hr
  · have hne : strip cs ≠ [] := by
      rintro hn
      simp [hn] at hc
    rw [List.getLast?_eq_some_getLast hne, Option.mem_some_iff] at hc
    exact hc ▸ getLast_strip hne

/-- A text that starts without a blank loses only the blanks at its end, so what follows its first
character strips to the same as before. -/
theorem strip_cons {c : Char} (cs : List Char) (hc : isBlank c = false) :
    ∃ ds, strip (c :: cs) = c :: ds ∧ strip ds = strip cs := by
  refine ⟨(cs.reverse.dropWhile isBlank).reverse, ?_, ?_⟩
  · have hdrop : (c :: cs).dropWhile isBlank = c :: cs := List.dropWhile_cons_of_neg (by simp [hc])
    have hlast : [c].dropWhile isBlank = [c] := List.dropWhile_cons_of_neg (by simp [hc])
    rw [strip, hdrop, List.reverse_cons, List.dropWhile_append]
    split <;> rename_i h
    · rw [hlast, List.isEmpty_iff.1 h]
      rfl
    · simp
  · have hcs : cs = (cs.reverse.dropWhile isBlank).reverse ++ (cs.reverse.takeWhile isBlank).reverse := by
      rw [← List.reverse_append, List.takeWhile_append_dropWhile, List.reverse_reverse]
    conv => rhs; rw [hcs]
    refine (strip_append_blank fun b hb => ?_).symm
    exact List.all_eq_true.1 List.all_takeWhile b (List.mem_reverse.1 hb)

/-! ## Words -/

theorem isWord_of_mem_words {cs w : List Char} (h : w ∈ words cs) : IsWord w := by
  obtain ⟨hm, hne⟩ := List.mem_filter.1 h
  exact ⟨by simpa using hne, not_sep_of_mem_pieces isBlank cs w hm⟩

theorem words_of_isWord {w : List Char} (h : IsWord w) : words w = [w] := by
  simp [words, pieces_of_not_sep h.2, h.1]

theorem words_append {w rest : List Char} {b : Char} (h : IsWord w) (hb : isBlank b = true) :
    words (w ++ b :: rest) = w :: words rest := by
  simp [words, pieces_append hb h.2, h.1]

theorem words_intercalate : ∀ {ws : List (List Char)}, (∀ w ∈ ws, IsWord w) →
    words ([' '].intercalate ws) = ws
  | [], _ => rfl
  | [w], h => by rw [List.intercalate_singleton, words_of_isWord (h w (by simp))]
  | w :: v :: ws, h => by
    have ih : words ([' '].intercalate (v :: ws)) = v :: ws :=
      words_intercalate fun u hu => h u (List.mem_cons_of_mem w hu)
    rw [List.intercalate_cons_cons, List.append_assoc, List.singleton_append,
      words_append (h w (by simp)) (by decide), ih]

theorem mem_of_mem_intercalate {c : Char} : ∀ {ws : List (List Char)}, c ∈ [' '].intercalate ws →
    c = ' ' ∨ ∃ w ∈ ws, c ∈ w
  | [], h => by simp at h
  | [w], h => .inr ⟨w, by simp, by simpa using h⟩
  | w :: v :: ws, h => by
    rw [List.intercalate_cons_cons, List.mem_append, List.mem_append, List.mem_singleton] at h
    rcases h with (h | h) | h
    · exact .inr ⟨w, by simp, h⟩
    · exact .inl h
    · rcases mem_of_mem_intercalate h with h | ⟨u, hu, hc⟩
      · exact .inl h
      · exact .inr ⟨u, List.mem_cons_of_mem w hu, hc⟩

theorem intercalate_ne_nil {w : List Char} {ws : List (List Char)} (h : w ≠ []) :
    [' '].intercalate (w :: ws) ≠ [] := by
  cases ws <;> simp [h]

theorem isBlank_getLast_intercalate : ∀ {ws : List (List Char)}, (∀ w ∈ ws, IsWord w) →
    ∀ c ∈ ([' '].intercalate ws).getLast?, isBlank c = false
  | [], _, c, hc => by simp at hc
  | [w], h, c, hc => by
    rw [List.intercalate_singleton] at hc
    exact (h w (by simp)).2 c (List.mem_of_getLast? hc)
  | w :: v :: ws, h, c, hc => by
    have hv : ∀ u ∈ v :: ws, IsWord u := fun u hu => h u (List.mem_cons_of_mem w hu)
    have hne : [' '].intercalate (v :: ws) ≠ [] := intercalate_ne_nil (hv v (by simp)).1
    refine isBlank_getLast_intercalate hv c ?_
    rwa [List.intercalate_cons_cons, List.getLast?_append, List.getLast?_eq_some_getLast hne,
      Option.some_or, ← List.getLast?_eq_some_getLast hne] at hc

theorem strip_intercalate {ws : List (List Char)} (h : ∀ w ∈ ws, IsWord w) :
    strip ([' '].intercalate ws) = [' '].intercalate ws := by
  refine strip_of_ends (fun c hc => ?_) (isBlank_getLast_intercalate h)
  rcases ws with _ | ⟨_ | ⟨d, w⟩, ws⟩
  · simp at hc
  · exact absurd rfl (h [] (by simp)).1
  · rw [List.intercalate_cons_cons_left, List.head?_cons, Option.mem_some_iff] at hc
    exact hc ▸ (h (d :: w) (by simp)).2 d (by simp)

end LocalSat.Text
