import LoxSyntax.Scan.Piece

/-! # The grammar of block comments

A block comment holds comments and characters at which no delimiter begins. A delimiter is taken
whole, so `/*/` is still open. Reading with a counter follows this grammar: `readComment_body` says
that it closes one comment at the end of its body, and `readComment_eq_some` that it stops nowhere
else. Hence a text has at most one comment at its front.
-/

namespace LoxSyntax

/-- What stands behind the `/*` of a block comment, up to its `*/`. -/
inductive CommentBody : List Char → Prop where
  | close : CommentBody ['*', '/']
  | nested {inner outer : List Char} (innerBody : CommentBody inner)
      (outerBody : CommentBody outer) : CommentBody ('/' :: '*' :: (inner ++ outer))
  | plain {c : Char} {outer : List Char} (noOpening : ¬ ['/', '*'] <+: c :: outer)
      (noClosing : ¬ ['*', '/'] <+: c :: outer) (outerBody : CommentBody outer) :
      CommentBody (c :: outer)

/-- A block comment with its delimiters. -/
def BlockComment (text : List Char) : Prop :=
  ∃ body, text = '/' :: '*' :: body ∧ CommentBody body

private theorem CommentBody.two_le_length {body : List Char} (grammar : CommentBody body) :
    2 ≤ body.length := by
  induction grammar with
  | close => exact Nat.le_refl 2
  | nested => simp
  | plain _ _ _ ih => exact Nat.le_succ_of_le ih

namespace Piece

variable {depth : Nat} {seen body rest text : List Char}

/-- What follows the end of a comment in `depth` comments around it. -/
def leaveComment (depth : Nat) (seen rest : List Char) : List Char × Option (List Char) :=
  match depth with
  | 0 => (seen.reverse, some rest)
  | outer + 1 => readComment outer seen rest

theorem readComment_close :
    readComment depth seen ('*' :: '/' :: rest) = leaveComment depth ('/' :: '*' :: seen) rest := by
  cases depth <;> rfl

theorem readComment_plain {c : Char} (noOpening : ¬ ['/', '*'] <+: c :: rest)
    (noClosing : ¬ ['*', '/'] <+: c :: rest) :
    readComment depth seen (c :: rest) = readComment depth (c :: seen) rest := by
  rw [readComment.eq_def]
  split
  · next shown =>
    cases shown
    exact absurd (List.prefix_append ['*', '/'] _) noClosing
  · next shown =>
    cases shown
    exact absurd (List.prefix_append ['/', '*'] _) noOpening
  · next shown =>
    cases shown
    rfl
  · next shown => cases shown

/-- A delimiter at the front of a comment's body and what follows lies within the body. -/
private theorem prefix_of_append {c d e : Char} {outer : List Char} (long : 2 ≤ outer.length)
    (front : [d, e] <+: c :: (outer ++ rest)) : [d, e] <+: c :: outer := by
  match outer, long with
  | second :: third :: others, _ =>
    obtain ⟨first, behind⟩ := List.cons_prefix_cons.mp front
    obtain ⟨next, _⟩ := List.cons_prefix_cons.mp behind
    rw [← first, ← next]
    exact List.prefix_append [d, e] (third :: others)

/-- Reading a body closes one comment. -/
theorem readComment_body (grammar : CommentBody body) :
    readComment depth seen (body ++ rest) = leaveComment depth (body.reverse ++ seen) rest := by
  induction grammar generalizing depth seen rest with
  | close => exact readComment_close
  | @nested inner outer _ _ innerRead outerRead =>
    have opened : readComment depth seen ('/' :: '*' :: (inner ++ outer) ++ rest) =
        readComment (depth + 1) ('*' :: '/' :: seen) (inner ++ (outer ++ rest)) := by
      rw [← List.append_assoc]
      rfl
    have closed : leaveComment (depth + 1) (inner.reverse ++ '*' :: '/' :: seen) (outer ++ rest) =
        readComment depth (inner.reverse ++ '*' :: '/' :: seen) (outer ++ rest) := rfl
    rw [opened, innerRead, closed, outerRead]
    simp
  | @plain c outer noOpening noClosing outerBody ih =>
    have long := outerBody.two_le_length
    rw [List.cons_append,
      readComment_plain (fun front => noOpening (prefix_of_append long front))
        (fun front => noClosing (prefix_of_append long front)), ih]
    simp

/-- Bodies one behind the other close a comment and all the comments around it. -/
inductive ClosesAll : Nat → List Char → Prop where
  | last {body : List Char} (grammar : CommentBody body) : ClosesAll 0 body
  | next {depth : Nat} {body more : List Char} (grammar : CommentBody body)
      (others : ClosesAll depth more) : ClosesAll (depth + 1) (body ++ more)

/-- Whatever extends the bodies in front extends the first one. -/
private theorem ClosesAll.extend {chars : List Char} (closes : ClosesAll depth chars)
    (front : List Char)
    (extend : ∀ body, CommentBody body → body <+: chars → CommentBody (front ++ body)) :
    ClosesAll depth (front ++ chars) := by
  cases closes with
  | last grammar => exact .last (extend _ grammar (List.prefix_refl _))
  | next grammar others =>
    rw [← List.append_assoc]
    exact .next (extend _ grammar (List.prefix_append _ _)) others

private theorem readComment_eq_some {chars : List Char}
    (read : readComment depth seen chars = (text, some rest)) :
    ∃ closing, ClosesAll depth closing ∧ chars = closing ++ rest := by
  fun_induction readComment depth seen chars with
  | case1 seen rest =>
    cases read
    exact ⟨_, .last .close, rfl⟩
  | case2 seen chars outer ih =>
    obtain ⟨closing, closes, rfl⟩ := ih read
    exact ⟨_, .next .close closes, rfl⟩
  | case3 depth seen chars ih =>
    obtain ⟨closing, closes, rfl⟩ := ih read
    -- Inside, one comment more had to be closed: the first body is that of the nested comment.
    cases closes with
    | @next _ inner more grammar others =>
      refine ⟨'/' :: '*' :: (inner ++ more), ?_, rfl⟩
      exact others.extend ('/' :: '*' :: inner) fun outer outerBody _ => .nested grammar outerBody
  | case4 depth seen c chars noClosing noOpening ih =>
    obtain ⟨closing, closes, rfl⟩ := ih read
    refine ⟨c :: closing, closes.extend [c] ?_, rfl⟩
    rintro body grammar ⟨more, rfl⟩
    refine .plain ?_ ?_ grammar
    · intro opening
      obtain ⟨rfl, ⟨others, rfl⟩⟩ := List.cons_prefix_cons.mp opening
      exact noOpening _ rfl rfl
    · intro closing
      obtain ⟨rfl, ⟨others, rfl⟩⟩ := List.cons_prefix_cons.mp closing
      exact noClosing _ rfl rfl
  | case5 depth seen => cases read

/-- The comment at the front, if the `/*` there has one, is the only one and is taken whole. -/
theorem cutBlockComment_of_body (grammar : CommentBody body) :
    cutBlockComment (body ++ rest) = (comment ('/' :: '*' :: body), rest) := by
  simp [cutBlockComment, readComment_body grammar, leaveComment]

theorem cutBlockComment_of_none {chars : List Char}
    (unclosed : ¬ ∃ body, CommentBody body ∧ body <+: chars) :
    cutBlockComment chars = (openComment ('/' :: '*' :: chars), []) := by
  have whole := readComment_text 0 ['*', '/'] chars
  unfold cutBlockComment
  split
  · next text rest read =>
    obtain ⟨closing, closes, rfl⟩ := readComment_eq_some read
    cases closes with
    | last grammar => exact absurd ⟨_, grammar, List.prefix_append _ _⟩ unclosed
  · next text read =>
    rw [read] at whole
    simpa using whole

end Piece
end LoxSyntax
