import LoxSyntax.Proofs.Scan.LongestMatch

/-! # Block comments before a scanner

A scanner that meets `/*` goes by the grammar of block comments. If the text before it begins with
a comment, it begins with only one, and the scanner passes over exactly that; if not, the rest of
the text is one comment that is never closed.
-/

namespace LoxSyntax

/-- A text begins with at most one block comment. -/
theorem BlockComment.unique {text other rest after : List Char} (closed : BlockComment text)
    (rival : BlockComment other) (same : text ++ rest = other ++ after) :
    text = other ∧ rest = after := by
  have leads : (Piece.comment text).Leads (text ++ rest) rest := .blockComment closed
  have leadsOther : (Piece.comment other).Leads (other ++ after) after := .blockComment rival
  obtain ⟨body, rfl, _⟩ := closed
  rw [← same] at leadsOther
  have cut := (Piece.cut_eq_of_leads leads).symm.trans (Piece.cut_eq_of_leads leadsOther)
  obtain ⟨samePiece, sameRest⟩ := Prod.mk.inj cut
  exact ⟨Piece.comment.inj samePiece, sameRest⟩

namespace Scanner

variable {scanner : Scanner}

/-- An unfinished scanner that meets `/*` passes over the comment there without a report and without
a token, so what it hands out next is what stands behind. Is the comment never closed, it reads all
that remains, reports this once, on the last line, and hands out the end marker. -/
theorem next_blockComment {chars : List Char} (unfinished : scanner.finished = false)
    (opens : scanner.rest = '/' :: '*' :: chars) :
    (∀ text rest, BlockComment text → scanner.rest = text ++ rest →
      (∀ other, BlockComment other → other <+: scanner.rest → other = text) ∧
      scanner.next = next { scanner with
        rest := rest
        position := scanner.position + text.length
        start := scanner.position
        line := scanner.line + text.count '\n' }) ∧
    ((∀ text, BlockComment text → ¬ text <+: scanner.rest) →
      scanner.next = (some (.eof (scanner.line + scanner.rest.count '\n')), {
        rest := []
        position := scanner.position + scanner.rest.length
        start := scanner.position
        line := scanner.line + scanner.rest.count '\n'
        finished := true
        faults := scanner.faults.push
          (.unterminatedComment (scanner.line + scanner.rest.count '\n')) })) := by
  constructor
  · intro text rest closed split
    constructor
    · rintro other rival ⟨after, same⟩
      exact (rival.unique closed (same.trans split)).1
    · have leads : (Piece.comment text).Leads scanner.rest rest := by
        rw [split]
        exact .blockComment closed
      exact next_of_leads unfinished leads
  · intro unclosed
    have leads : (Piece.openComment scanner.rest).Leads scanner.rest [] := by
      rw [opens] at unclosed ⊢
      exact .openComment fun ⟨text, closed, front⟩ => unclosed text closed front
    have step : scanner.next = (scanner.pass (.openComment scanner.rest) []).next :=
      next_of_leads unfinished leads
    have behind : (scanner.pass (.openComment scanner.rest) []).finished = false := unfinished
    rw [step, next_of_end behind rfl]
    rfl

/-- The delimiters of `/*/*/ */*/` share no character, so two comments are opened and two closed;
in `/*/` the second slash closes nothing. -/
theorem next_blockComment_delimiters :
    ((ofSource "/*/*/ */*/c").finished = false ∧
      (ofSource "/*/*/ */*/c").rest = '/' :: '*' :: "/*/ */*/c".toList ∧
      BlockComment "/*/*/ */*/".toList ∧
      (ofSource "/*/*/ */*/c").rest = "/*/*/ */*/".toList ++ ['c'] ∧
      (ofSource "/*/*/ */*/c").next = next ⟨['c'], 10, 0, 1, false, #[]⟩) ∧
    ((ofSource "/*/\n").finished = false ∧
      (ofSource "/*/\n").rest = '/' :: '*' :: ['/', '\n'] ∧
      (∀ text, BlockComment text → ¬ text <+: (ofSource "/*/\n").rest) ∧
      (ofSource "/*/\n").next =
        (some (.eof 2), ⟨[], 4, 0, 2, true, #[.unterminatedComment 2]⟩)) := by
  constructor
  · have inner : CommentBody "/ */".toList :=
      .plain (by decide) (by decide) (.plain (by decide) (by decide) .close)
    have closed : BlockComment "/*/*/ */*/".toList := ⟨_, rfl, .nested inner .close⟩
    have opens : (ofSource "/*/*/ */*/c").rest = '/' :: '*' :: "/*/ */*/c".toList := by decide
    have split : (ofSource "/*/*/ */*/c").rest = "/*/*/ */*/".toList ++ ['c'] := by decide
    have passed := ((next_blockComment rfl opens).1 _ _ closed split).2
    exact ⟨rfl, opens, closed, split, passed⟩
  · have opens : (ofSource "/*/\n").rest = '/' :: '*' :: ['/', '\n'] := by decide
    have unclosed : ∀ text, BlockComment text → ¬ text <+: (ofSource "/*/\n").rest := by
      rintro text closed ⟨after, same⟩
      have leads : (Piece.comment text).Leads (text ++ after) after := .blockComment closed
      rw [same, opens] at leads
      cases (Piece.cut_eq_of_leads leads).symm.trans (rfl : _ = (Piece.openComment _, _))
    exact ⟨rfl, opens, unclosed, (next_blockComment rfl opens).2 unclosed⟩

end Scanner
end LoxSyntax
