import ConfigGraph.Proofs.Grammar.Lexeme

/-!
# Skipping gaps

What the lexer skips before a token is exactly a gap, and it skips all of it.  The code points that
can follow a token in a spaced text belong to no token.
-/

namespace ConfigGraph.Grammar

open Lexer

/-- The blanks, and the sign that starts a comment. -/
def boundaries : List CodePoint := [' ', '\t', '\n', '\r', '\x0c', '#']

theorem mem_boundaries_of_isBlank {code : CodePoint} (blank : isBlank code = true) :
    code ∈ boundaries := by
  simp only [isBlank, Bool.or_eq_true, beq_iff_eq] at blank
  simp only [boundaries, List.mem_cons, List.not_mem_nil, or_false]
  rcases blank with (((isSpace | isTab) | isFeed) | isReturn) | isPage
  · exact .inl isSpace
  · exact .inr (.inl isTab)
  · exact .inr (.inr (.inl isFeed))
  · exact .inr (.inr (.inr (.inl isReturn)))
  · refine .inr (.inr (.inr (.inr (.inl ?_))))
    cases code
    cases isPage
    rfl

theorem isBlank_or_number_of_mem {code : CodePoint} (member : code ∈ boundaries) :
    isBlank code = true ∨ code = '#' := by
  revert code
  decide

/-- The text behind a token in a spaced text is empty or starts with a boundary. -/
theorem Delimited.head_mem {rest : Text} {code : CodePoint} (delimited : Delimited (code :: rest)) :
    code ∈ boundaries := by
  cases delimited with
  | blank blank => exact mem_boundaries_of_isBlank blank
  | comment => decide

/-! ## Skipping a gap -/

theorem skip_inLine {body : Text} (inLine : ∀ code ∈ body, code ≠ '\n') (rest : Text) :
    skip true (body ++ rest) = skip true rest := by
  induction body with
  | nil => rfl
  | cons code body induction =>
      have different : code ≠ '\n' := inLine code List.mem_cons_self
      have continues : (code != CodePoint.ofChar '\n') = true := bne_iff_ne.mpr different
      simp only [List.cons_append, skip, continues]
      exact induction fun other member => inLine other (List.mem_cons_of_mem _ member)

theorem skip_comment {body rest : Text} (inLine : ∀ code ∈ body, code ≠ '\n') :
    skip true (body ++ CodePoint.ofChar '\n' :: rest) = skip false rest := by
  rw [skip_inLine inLine]
  rfl

theorem skip_openComment {body : Text} (inLine : ∀ code ∈ body, code ≠ '\n') :
    skip true body = [] := by
  rw [← List.append_nil body, skip_inLine inLine]
  rfl

theorem skip_number (rest : Text) :
    skip false (CodePoint.ofChar '#' :: rest) = skip true rest := by
  rw [skip, if_neg (by decide), if_pos rfl]

theorem Gap.skipBlanks_append {gap : Text} (isGap : Gap gap) (rest : Text) :
    skipBlanks (gap ++ rest) = skipBlanks rest := by
  induction isGap with
  | nil => rfl
  | blank blank _ induction =>
      rw [List.cons_append, skipBlanks, skip, if_pos blank]
      exact induction
  | comment inLine _ induction =>
      rw [List.cons_append, List.append_assoc, List.cons_append, skipBlanks, skip_number,
        skip_comment inLine]
      exact induction

theorem Gap.append {gap other : Text} (isGap : Gap gap) (alsoGap : Gap other) :
    Gap (gap ++ other) := by
  induction isGap with
  | nil => exact alsoGap
  | blank blank _ induction => exact .blank blank induction
  | comment inLine _ induction =>
      rw [List.cons_append, List.append_assoc, List.cons_append]
      exact .comment inLine induction

theorem FinalGap.skipBlanks_eq_nil {text : Text} (isGap : FinalGap text) :
    skipBlanks text = [] := by
  cases isGap with
  | closed isGap => simpa [skipBlanks, skip] using isGap.skipBlanks_append []
  | comment isGap inLine =>
      rw [isGap.skipBlanks_append, skipBlanks, skip_number]
      exact skip_openComment inLine

/-- At the start of a token there is nothing to skip. -/
theorem skipBlanks_cons {code : CodePoint} {rest : Text} (inside : code ∉ boundaries) :
    skipBlanks (code :: rest) = code :: rest := by
  have notBlank : ¬isBlank code = true := fun blank => inside (mem_boundaries_of_isBlank blank)
  have notNumber : ¬code = '#' := by
    rintro rfl
    exact inside (by decide)
  rw [skipBlanks, skip, if_neg notBlank, if_neg notNumber]

/-! ## What was skipped is a gap -/

theorem Gap.cons_inComment {gap : Text} {code : CodePoint} (inLine : code ≠ '\n')
    (isGap : Gap (CodePoint.ofChar '#' :: gap)) :
    Gap (CodePoint.ofChar '#' :: code :: gap) := by
  cases isGap with
  | blank blank _ => exact absurd blank (by decide)
  | @comment body rest others isGap =>
      have all : ∀ other ∈ code :: body, other ≠ CodePoint.ofChar '\n' :=
        List.forall_mem_cons.mpr ⟨inLine, others⟩
      exact .comment all isGap

theorem FinalGap.cons_blank {code : CodePoint} {text : Text} (blank : isBlank code = true)
    (isGap : FinalGap text) : FinalGap (code :: text) := by
  cases isGap with
  | closed isGap => exact .closed (.blank blank isGap)
  | comment isGap inLine => exact .comment (.blank blank isGap) inLine

theorem FinalGap.cons_emptyComment {text : Text} (isGap : FinalGap text) :
    FinalGap (CodePoint.ofChar '#' :: CodePoint.ofChar '\n' :: text) := by
  have nothing : ∀ code ∈ ([] : Text), code ≠ CodePoint.ofChar '\n' := by simp
  cases isGap with
  | closed isGap => exact .closed (.comment nothing isGap)
  | comment isGap last => exact .comment (.comment nothing isGap) last

theorem FinalGap.cons_inComment {text : Text} {code : CodePoint} (inLine : code ≠ '\n')
    (isGap : FinalGap (CodePoint.ofChar '#' :: text)) :
    FinalGap (CodePoint.ofChar '#' :: code :: text) := by
  -- The sign may start the last comment or one that is closed already.
  generalize whole : CodePoint.ofChar '#' :: text = comment at isGap
  cases isGap with
  | closed isGap =>
      subst whole
      exact .closed (isGap.cons_inComment inLine)
  | @comment gap body isGap last =>
      cases gap with
      | nil =>
          cases whole
          exact .comment .nil (List.forall_mem_cons.mpr ⟨inLine, last⟩)
      | cons number gap =>
          cases whole
          exact .comment (isGap.cons_inComment inLine) last

/-- The sign that is missing in front of a text that starts inside a comment. -/
def openSign (comment : Bool) : Text := if comment then [CodePoint.ofChar '#'] else []

/-- What was skipped before a token is a gap, and the token starts with no boundary. -/
theorem gap_of_skip {comment : Bool} {text rest : Text} {first : CodePoint}
    (skipped : skip comment text = first :: rest) :
    first ∉ boundaries ∧ ∃ gap, Gap (openSign comment ++ gap) ∧ text = gap ++ first :: rest := by
  -- Comments start and end on the way, so the induction is over both values of the flag.
  induction text generalizing comment with
  | nil => cases comment <;> simp [skip] at skipped
  | cons code text induction =>
      cases comment with
      | true =>
          by_cases ends : code = '\n'
          · subst ends
            obtain ⟨inside, gap, isGap, split⟩ := @induction false skipped
            have nothing : ∀ code ∈ ([] : Text), code ≠ CodePoint.ofChar '\n' := by simp
            exact ⟨inside, CodePoint.ofChar '\n' :: gap, .comment nothing isGap, by simp [split]⟩
          · have continues : (code != CodePoint.ofChar '\n') = true := bne_iff_ne.mpr ends
            rw [skip, continues] at skipped
            obtain ⟨inside, gap, isGap, split⟩ := @induction true skipped
            exact ⟨inside, code :: gap, isGap.cons_inComment ends, by simp [split]⟩
      | false =>
          rw [skip] at skipped
          by_cases blank : isBlank code = true
          · rw [if_pos blank] at skipped
            obtain ⟨inside, gap, isGap, split⟩ := @induction false skipped
            exact ⟨inside, code :: gap, .blank blank isGap, by simp [split]⟩
          · rw [if_neg blank] at skipped
            by_cases number : code = '#'
            · rw [if_pos number] at skipped
              subst number
              obtain ⟨inside, gap, isGap, split⟩ := @induction true skipped
              exact ⟨inside, CodePoint.ofChar '#' :: gap, isGap, by simp [split]⟩
            · rw [if_neg number] at skipped
              cases skipped
              refine ⟨fun member => ?_, [], .nil, rfl⟩
              rcases isBlank_or_number_of_mem member with isBlank | isNumber
              · exact blank isBlank
              · exact number isNumber

theorem gap_of_skipBlanks {text rest : Text} {first : CodePoint}
    (skipped : skipBlanks text = first :: rest) :
    first ∉ boundaries ∧ ∃ gap, Gap gap ∧ text = gap ++ first :: rest :=
  @gap_of_skip false text rest first skipped

/-- Where all is skipped, all is a gap. -/
theorem finalGap_of_skip {comment : Bool} {text : Text} (skipped : skip comment text = []) :
    FinalGap (openSign comment ++ text) := by
  induction text generalizing comment with
  | nil =>
      cases comment with
      | false => exact .closed .nil
      | true => exact .comment .nil (by simp)
  | cons code text induction =>
      cases comment with
      | true =>
          by_cases ends : code = '\n'
          · subst ends
            exact FinalGap.cons_emptyComment (@induction false skipped)
          · have continues : (code != CodePoint.ofChar '\n') = true := bne_iff_ne.mpr ends
            rw [skip, continues] at skipped
            exact FinalGap.cons_inComment ends (@induction true skipped)
      | false =>
          rw [skip] at skipped
          by_cases blank : isBlank code = true
          · rw [if_pos blank] at skipped
            exact FinalGap.cons_blank blank (@induction false skipped)
          · rw [if_neg blank] at skipped
            by_cases number : code = '#'
            · rw [if_pos number] at skipped
              subst number
              exact @induction true skipped
            · rw [if_neg number] at skipped
              cases skipped

end ConfigGraph.Grammar
