/-!
# Cutting text at separator characters

`pieces p cs` cuts a list of characters at every character that satisfies `p`. Main statements: there
is always at least one piece (`pieces_ne_nil`), no piece holds a separator (`not_sep_of_mem_pieces`),
nothing but the separators is lost (`flatten_pieces`), and what is joined by a separator falls into the
same pieces again (`pieces_intercalate`).
-/

namespace LocalSat.Text

/-- The stretches between the characters that satisfy `sep`; two neighbouring separators have an empty
stretch between them. -/
def pieces (sep : Char → Bool) : List Char → List (List Char)
  | [] => [[]]
  | c :: cs =>
    if sep c then [] :: pieces sep cs
    else match pieces sep cs with
      | [] => [[c]]
      | w :: ws => (c :: w) :: ws

theorem pieces_ne_nil (sep : Char → Bool) : ∀ cs : List Char, pieces sep cs ≠ []
  | [] => by simp [pieces]
  | c :: cs => by
    unfold pieces
    split
    · simp
    · split <;> simp

theorem not_sep_of_mem_pieces (sep : Char → Bool) :
    ∀ (cs : List Char), ∀ w ∈ pieces sep cs, ∀ c ∈ w, sep c = false
  | [], w, hw, c, hc => by simp [pieces] at hw; simp [hw] at hc
  | d :: cs, w, hw, c, hc => by
    have ih := not_sep_of_mem_pieces sep cs
    unfold pieces at hw
    split at hw
    · rcases List.mem_cons.1 hw with rfl | hw
      · simp at hc
      · exact ih w hw c hc
    · rename_i hd
      split at hw
      · simp at hw; subst hw; simp at hc; subst hc; simpa using hd
      · rename_i v vs hv
        rcases List.mem_cons.1 hw with rfl | hw
        · rcases List.mem_cons.1 hc with rfl | hc
          · simpa using hd
          · exact ih v (by simp [hv]) c hc
        · exact ih w (by simp [hv, hw]) c hc

theorem flatten_pieces (sep : Char → Bool) :
    ∀ cs : List Char, (pieces sep cs).flatten = cs.filter (fun c => !sep c)
  | [] => by simp [pieces]
  | c :: cs => by
    have ih := flatten_pieces sep cs
    unfold pieces
    split
    · rename_i h; simp [ih, h]
    · rename_i h
      split
      · rename_i hn; exact absurd hn (pieces_ne_nil sep cs)
      · rename_i w ws hw
        simp only [Bool.not_eq_true] at h
        simp only [hw, List.flatten_cons] at ih
        simp [h, ← ih]

theorem pieces_of_not_sep {sep : Char → Bool} :
    ∀ {w : List Char}, (∀ c ∈ w, sep c = false) → pieces sep w = [w]
  | [], _ => rfl
  | c :: w, h => by
    have hw : pieces sep w = [w] := pieces_of_not_sep fun d hd => h d (by simp [hd])
    simp [pieces, hw, h c (by simp)]

theorem pieces_append {sep : Char → Bool} {s : Char} {rest : List Char} (hs : sep s = true) :
    ∀ {w : List Char}, (∀ c ∈ w, sep c = false) →
      pieces sep (w ++ s :: rest) = w :: pieces sep rest
  | [], _ => by simp [pieces, hs]
  | c :: w, h => by
    have hw : pieces sep (w ++ s :: rest) = w :: pieces sep rest :=
      pieces_append hs fun d hd => h d (by simp [hd])
    simp [pieces, hw, h c (by simp)]

/-- What is joined by a separator falls into the same pieces again. -/
theorem pieces_intercalate {sep : Char → Bool} {s : Char} (hs : sep s = true) :
    ∀ {ws : List (List Char)}, ws ≠ [] → (∀ w ∈ ws, ∀ c ∈ w, sep c = false) →
      pieces sep ([s].intercalate ws) = ws
  | [w], _, h => by rw [List.intercalate_singleton, pieces_of_not_sep (h w (by simp))]
  | w :: v :: ws, _, h => by
    have ih : pieces sep ([s].intercalate (v :: ws)) = v :: ws :=
      pieces_intercalate hs (by simp) fun u hu => h u (List.mem_cons_of_mem w hu)
    rw [List.intercalate_cons_cons, List.append_assoc, List.singleton_append,
      pieces_append hs (h w (by simp)), ih]

/-- The stretches of `text` between the occurrences of one character. -/
def fields (sep : Char) (text : String) : List String :=
  (pieces (· == sep) text.toList).map String.ofList

end LocalSat.Text
