import LoxSyntax.Unicode.Cluster

/-! # Backspaces in a line

A line that does not come from a terminal may still hold backspaces. Each takes back the grapheme
cluster typed before it, and none of them stays in the line. The size of a cluster is kept in a
byte, so that of a cluster of 256 bytes or more only the remainder is taken back.

`applyBackspaces_eq_self` says that a line without backspaces stays as it is, and
`Typed.erase_put` that a backspace undoes the cluster before it.
-/

namespace LoxSyntax.CommandLine

/-- The character that takes back what was typed before it. -/
def backspace : Char := '\x08'

def byteSize : List Char → Nat
  | [] => 0
  | c :: text => c.utf8Size + byteSize text

/-- The text without its first bytes. A character of which a byte goes is left out whole. -/
def dropBytes (count : Nat) : List Char → List Char
  | [] => []
  | c :: text => if count = 0 then c :: text else dropBytes (count - c.utf8Size) text

/-- A line as far as it is typed. -/
structure Typed where
  /-- The characters, the last one first. -/
  reversed : List Char
  /-- The sizes of the clusters, the last one first, as far as a byte holds them. -/
  sizes : List Nat
deriving DecidableEq

namespace Typed

def empty : Typed := ⟨[], []⟩

def put (typed : Typed) (cluster : List Char) : Typed :=
  ⟨cluster.reverse ++ typed.reversed, byteSize cluster % 256 :: typed.sizes⟩

def erase (typed : Typed) : Typed :=
  match typed.sizes with
  | [] => typed
  | size :: sizes => ⟨dropBytes size typed.reversed, sizes⟩

def step (typed : Typed) (cluster : List Char) : Typed :=
  if cluster = [backspace] then typed.erase else typed.put cluster

def line (typed : Typed) : List Char := typed.reversed.reverse

end Typed

/-- The line that is left when its backspaces have done their work. -/
def applyBackspaces (line : List Char) : List Char :=
  ((Unicode.clusters line).foldl Typed.step .empty).line

/-! ### Laws -/

theorem byteSize_append (text rest : List Char) :
    byteSize (text ++ rest) = byteSize text + byteSize rest := by
  induction text with
  | nil => simp [byteSize]
  | cons c text ih => rw [List.cons_append, byteSize, byteSize, ih, Nat.add_assoc]

theorem byteSize_reverse (text : List Char) : byteSize text.reverse = byteSize text := by
  induction text with
  | nil => rfl
  | cons c text ih =>
    rw [List.reverse_cons, byteSize_append, ih, byteSize, byteSize, byteSize]
    omega

theorem dropBytes_append (text rest : List Char) :
    dropBytes (byteSize text) (text ++ rest) = rest := by
  induction text with
  | nil => cases rest <;> rfl
  | cons c text ih =>
    have positive : ¬ c.utf8Size + byteSize text = 0 := by
      have := c.utf8Size_pos
      omega
    rw [byteSize, List.cons_append, dropBytes, if_neg positive, Nat.add_sub_cancel_left, ih]

/-- A backspace undoes the cluster before it, if a byte holds its size. -/
theorem Typed.erase_put (typed : Typed) {cluster : List Char} (small : byteSize cluster < 256) :
    (typed.put cluster).erase = typed := by
  simp only [Typed.put, Typed.erase, Nat.mod_eq_of_lt small]
  rw [← byteSize_reverse, dropBytes_append]

/-- Clusters other than a backspace stand behind one another. -/
theorem Typed.line_foldl_step (clusters : List (List Char)) (typed : Typed)
    (plain : [backspace] ∉ clusters) :
    (clusters.foldl Typed.step typed).line = typed.line ++ clusters.flatten := by
  induction clusters generalizing typed with
  | nil => simp
  | cons cluster clusters ih =>
    rw [List.mem_cons, not_or] at plain
    rw [List.foldl_cons, ih _ plain.2, Typed.step, if_neg (Ne.symm plain.1)]
    simp [Typed.put, Typed.line]

/-- A line without backspaces stays as it is. -/
theorem applyBackspaces_eq_self {line : List Char} (plain : backspace ∉ line) :
    applyBackspaces line = line := by
  have apart : [backspace] ∉ Unicode.clusters line := by
    intro member
    have inLine := List.mem_flatten_of_mem member (List.mem_singleton_self backspace)
    rw [Unicode.clusters_flatten] at inLine
    exact plain inLine
  rw [applyBackspaces, Typed.line_foldl_step _ _ apart, Unicode.clusters_flatten]
  rfl

end LoxSyntax.CommandLine
