/-!
# Lines of a text

Three conventions say where a line ends; they differ only in the set of ending characters, so one
function `lines` serves them all. A carriage return directly followed by a line feed ends one line
whenever the carriage return ends a line at all, and no empty line is counted after the last end. Main
statements: what is joined by line feeds falls into the same lines again (`lines_intercalate`), and no
line holds a character that ends lines (`not_ends_of_mem_lines`).
-/

namespace LocalSat.Text

/-- Where lines end. -/
inductive LineEnds where
  /-- Every character that Unicode calls a line or paragraph boundary, and the separator controls. -/
  | boundary
  /-- The line feed alone. -/
  | lineFeed
  /-- The line feed and the carriage return. -/
  | newline
deriving DecidableEq, Repr

/-- Whether a character ends a line. -/
def LineEnds.ends : LineEnds → Char → Bool
  | .boundary, c =>
    let n := c.toNat
    (10 ≤ n && n ≤ 13) || (28 ≤ n && n ≤ 30) || n == 0x85 || n == 0x2028 || n == 0x2029
  | .lineFeed, c => c == '\n'
  | .newline, c => c == '\n' || c == '\r'

/-- Puts a character in front of the first line. -/
def putFirst (c : Char) : List (List Char) → List (List Char)
  | [] => [[c]]
  | l :: ls => (c :: l) :: ls

/-- The lines of a text, without their ends. A carriage return before a line feed belongs to the line
only if carriage returns end no line. -/
def lines (e : LineEnds) : List Char → List (List Char)
  | [] => []
  | '\r' :: '\n' :: cs => (if e.ends '\r' then [] else ['\r']) :: lines e cs
  | c :: cs => if e.ends c then [] :: lines e cs else putFirst c (lines e cs)

/-! ## Lines that are put together -/

theorem LineEnds.ends_lineFeed (e : LineEnds) : e.ends '\n' = true := by
  cases e <;> decide

theorem lines_cons {e : LineEnds} {c : Char} {cs : List Char} (h : c = '\r' → cs.head? ≠ some '\n') :
    lines e (c :: cs) = if e.ends c then [] :: lines e cs else putFirst c (lines e cs) := by
  rw [lines]
  rintro ds rfl rfl
  exact h rfl rfl

theorem lines_append {e : LineEnds} {rest : List Char} : ∀ {l : List Char},
    (∀ c ∈ l, e.ends c = false) → lines e (l ++ '\n' :: rest) = l :: lines e rest
  | [], _ => by
    rw [List.nil_append, lines_cons (fun h => absurd h (by decide)), if_pos e.ends_lineFeed]
  | c :: l, h => by
    have hc : e.ends c = false := h c (by simp)
    have hl : lines e (l ++ '\n' :: rest) = l :: lines e rest :=
      lines_append fun d hd => h d (by simp [hd])
    -- a carriage return at the end of the line is the one character that is read together with the next
    by_cases hcr : c = '\r' ∧ l = []
    · obtain ⟨rfl, rfl⟩ := hcr
      simp [lines, hc]
    · rw [List.cons_append, lines_cons, hl, hc]
      · rfl
      · rintro rfl hn
        rcases l with _ | ⟨d, l⟩
        · exact hcr ⟨rfl, rfl⟩
        · cases hn
          simpa [e.ends_lineFeed] using h '\n'

theorem lines_intercalate {e : LineEnds} :
    ∀ {ls : List (List Char)}, ls ≠ [] → (∀ l ∈ ls, ∀ c ∈ l, e.ends c = false) →
      lines e (['\n'].intercalate ls ++ ['\n']) = ls
  | [], hne, _ => absurd rfl hne
  | [l], _, h => by
    rw [List.intercalate_singleton, lines_append (h l (by simp)), lines]
  | l :: m :: ls, _, h => by
    have ih : lines e (['\n'].intercalate (m :: ls) ++ ['\n']) = m :: ls :=
      lines_intercalate (by simp) fun k hk => h k (List.mem_cons_of_mem l hk)
    rw [List.intercalate_cons_cons, List.append_assoc, List.append_assoc, List.singleton_append,
      lines_append (h l (by simp)), ih]

/-! ## Lines that are taken apart -/

theorem mem_putFirst {c : Char} {l : List Char} : ∀ {ls : List (List Char)}, l ∈ putFirst c ls →
    ∀ d ∈ l, d = c ∨ ∃ k ∈ ls, d ∈ k
  | [], h, d, hd => by
    rw [List.mem_singleton.1 h, List.mem_singleton] at hd
    exact .inl hd
  | k :: ls, h, d, hd => by
    rcases List.mem_cons.1 h with rfl | h
    · rcases List.mem_cons.1 hd with rfl | hd
      · exact .inl rfl
      · exact .inr ⟨k, List.mem_cons_self, hd⟩
    · exact .inr ⟨l, List.mem_cons_of_mem k h, hd⟩

/-- No line holds a character that ends lines. -/
theorem not_ends_of_mem_lines {e : LineEnds} {cs : List Char} :
    ∀ l ∈ lines e cs, ∀ c ∈ l, e.ends c = false := by
  fun_induction lines e cs with
  | case1 => simp
  | case2 cs ih =>
    intro l hl c hc
    rcases List.mem_cons.1 hl with rfl | hl
    · by_cases hr : e.ends '\r' = true
      · simp [hr] at hc
      · rw [if_neg hr, List.mem_singleton] at hc
        rw [hc]
        simpa using hr
    · exact ih l hl c hc
  | case3 d cs _ hd ih =>
    intro l hl c hc
    rcases List.mem_cons.1 hl with rfl | hl
    · cases hc
    · exact ih l hl c hc
  | case4 d cs _ hd ih =>
    intro l hl c hc
    rcases mem_putFirst hl c hc with rfl | ⟨k, hk, hc⟩
    · simpa using hd
    · exact ih k hk c hc

end LocalSat.Text
