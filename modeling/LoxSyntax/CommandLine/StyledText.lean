/-! # Styled text

Messages mark some of their parts with control sequences that a terminal turns into a style. A
stream that is no terminal gets the text without them: `plainText` follows a terminal through its
control sequences and keeps the characters that it would show. That includes the sequences which
came in with an argument, so that a message never carries one.

`plainText_apply` says that what is left of a styled part is the part itself, if it has no control
characters of its own.
-/

namespace LoxSyntax.CommandLine

/-- How a part of a message looks on a terminal. -/
inductive Style where
  /-- Says that something is wrong. -/
  | alarm
  /-- What is wrong. -/
  | culprit
  /-- What can be typed. -/
  | literal
deriving DecidableEq

/-- The numbers of the control sequence that starts the style. -/
def Style.codes : Style → String
  | alarm => "1;31"
  | culprit => "33"
  | literal => "1"

def Style.apply (style : Style) (text : String) : String :=
  "\x1b[" ++ style.codes ++ "m" ++ text ++ "\x1b[0m"

/-! ### Control sequences -/

/-- What a character is to a terminal. -/
inductive TerminalRole where
  /-- Starts a control sequence, wherever it stands. -/
  | escape
  /-- Breaks a control sequence off. -/
  | cancel
  /-- Moves the cursor: a tab, a newline, a form feed, a carriage return. -/
  | blank
  | control
  | intermediate
  | parameter
  | closing
  | delete
  /-- Stands outside ASCII. -/
  | wide
deriving DecidableEq

namespace TerminalRole

def ofChar (c : Char) : TerminalRole :=
  let n := c.toNat
  if n = 0x1B then escape
  else if n = 0x18 ∨ n = 0x1A then cancel
  else if n = 0x09 ∨ n = 0x0A ∨ n = 0x0C ∨ n = 0x0D then blank
  else if n < 0x20 then control
  else if n < 0x30 then intermediate
  else if n < 0x40 then parameter
  else if n < 0x7F then closing
  else if n = 0x7F then delete
  else wide

/-- The character is shown outside control sequences. -/
def isShown : TerminalRole → Bool
  | blank | intermediate | parameter | closing | wide => true
  | escape | cancel | control | delete => false

end TerminalRole

/-- How far a control sequence has come. -/
inductive SequencePart where
  | outside
  | escape
  /-- Behind an intermediate character of a sequence without parameters. -/
  | intermediate
  | parameters
  /-- In a command to the operating system, such as a window title. -/
  | command
  /-- At the start of a string for the device. -/
  | device
  | deviceParameters
  /-- Behind an intermediate character of a string for the device. -/
  | deviceIntermediate
  /-- In a string, whose characters are not looked at. -/
  | string
deriving DecidableEq

namespace SequencePart

/-- What the character behind the escape starts, if it is neither an intermediate character nor a
control. -/
def ofEscaped (c : Char) : SequencePart :=
  match c with
  | '[' => parameters
  | ']' => command
  | 'P' => device
  | 'X' | '^' | '_' => string
  | _ => outside

/-- The byte that ends a string. It is no character, but can be a part of one. -/
def stringTerminator : UInt8 := 0x9C

def advance (part : SequencePart) (c : Char) : SequencePart :=
  match TerminalRole.ofChar c, part with
  | .escape, _ => escape
  | .cancel, _ => outside
  | _, outside => outside
  | .intermediate, escape => intermediate
  | .parameter, escape | .closing, escape => ofEscaped c
  | .parameter, intermediate | .closing, intermediate => outside
  | .closing, parameters => outside
  | _, command => if c = '\x07' then outside else command
  | .intermediate, device | .intermediate, deviceParameters => deviceIntermediate
  | .parameter, device => deviceParameters
  | .parameter, deviceParameters => if c < '<' then deviceParameters else string
  | .parameter, deviceIntermediate => string
  | .closing, device | .closing, deviceParameters | .closing, deviceIntermediate => string
  | .wide, string =>
    if stringTerminator ∈ c.toString.toUTF8.data then outside else string
  | _, part => part

/-- The cursor still moves inside the sequence. -/
def movesCursor : SequencePart → Bool
  | escape | intermediate | parameters => true
  | _ => false

end SequencePart

/-- A terminal on its way through a text. -/
structure Terminal where
  part : SequencePart
  /-- The cursor has moved inside a sequence, and what follows is shown as if outside. -/
  hasMoved : Bool
deriving DecidableEq

namespace Terminal

def ground : Terminal := ⟨.outside, false⟩

def shows (terminal : Terminal) (c : Char) : Bool :=
  (terminal.part = .outside || terminal.hasMoved) && (TerminalRole.ofChar c).isShown

/-- The terminal behind a character that it shows. One outside ASCII ends the sequence. -/
def afterShown (terminal : Terminal) (c : Char) : Terminal :=
  if TerminalRole.ofChar c = .wide then ground else terminal

def movesInside (terminal : Terminal) (c : Char) : Bool :=
  TerminalRole.ofChar c = .blank && terminal.part.movesCursor

def shown (terminal : Terminal) : List Char → List Char
  | [] => []
  | c :: text =>
    if terminal.shows c then c :: (terminal.afterShown c).shown text
    else if terminal.movesInside c then
      c :: { part := terminal.part.advance c, hasMoved := true : Terminal }.shown text
    else { part := terminal.part.advance c, hasMoved := false : Terminal }.shown text

end Terminal

/-- The text as it stands on a stream that is no terminal. -/
def plainText (text : String) : String := String.ofList (Terminal.ground.shown text.toList)

/-! ### Laws -/

namespace Terminal

/-- Text without control characters is shown. -/
theorem shown_append (text rest : List Char)
    (plain : ∀ c ∈ text, (TerminalRole.ofChar c).isShown = true) :
    ground.shown (text ++ rest) = text ++ ground.shown rest := by
  induction text with
  | nil => rfl
  | cons c text ih =>
    have first : ground.shows c = true := by simp [shows, ground, plain c (List.mem_cons_self ..)]
    have after : ground.afterShown c = ground := by
      unfold afterShown
      split <;> rfl
    rw [List.cons_append, shown, if_pos first, after,
      ih fun other member => plain other (List.mem_cons_of_mem c member), List.cons_append]

theorem shown_escape (terminal : Terminal) (rest : List Char) :
    terminal.shown ('\x1b' :: rest) = (⟨.escape, false⟩ : Terminal).shown rest := by
  have hidden : terminal.shows '\x1b' = false := by
    simp [shows, show TerminalRole.ofChar '\x1b' = .escape from rfl, TerminalRole.isShown]
  simp [shown, hidden, movesInside, show TerminalRole.ofChar '\x1b' = .escape from rfl,
    SequencePart.advance]

theorem shown_style (terminal : Terminal) (style : Style) (rest : List Char) :
    terminal.shown ("\x1b[".toList ++ style.codes.toList ++ "m".toList ++ rest) =
      ground.shown rest := by
  have start : "\x1b[".toList = ['\x1b', '['] := rfl
  rw [start]
  simp only [List.cons_append, shown_escape]
  cases style <;> rfl

theorem shown_reset (terminal : Terminal) (rest : List Char) :
    terminal.shown ("\x1b[0m".toList ++ rest) = ground.shown rest := by
  have all : "\x1b[0m".toList = ['\x1b', '[', '0', 'm'] := rfl
  rw [all]
  simp only [List.cons_append, shown_escape]
  rfl

end Terminal

/-- Of a styled text without control characters of its own the text is left. -/
theorem plainText_apply (style : Style) (text : String)
    (plain : ∀ c ∈ text.toList, (TerminalRole.ofChar c).isShown = true) :
    plainText (style.apply text) = text := by
  have reset := Terminal.shown_reset .ground []
  rw [List.append_nil] at reset
  simp only [plainText, Style.apply, String.toList_append, List.append_assoc]
  have start := Terminal.shown_style .ground style (text.toList ++ "\x1b[0m".toList)
  simp only [List.append_assoc] at start
  rw [start, Terminal.shown_append _ _ plain, reset]
  simp [Terminal.shown]

end LoxSyntax.CommandLine
