/-
**Printed forms, on one line and as a block.**

The printed form of a value is a tree: pieces of text, labelled forms, and groups in brackets.  A
tree is printed in one of two ways.  On one line the items of a group are separated by commas; as a
block each item begins a line of its own, is set in by four places and ends in a comma, and so on
inside.  A group without items is its two brackets either way.

A text is quoted between double quotes.  The quote itself and the backslash are written with a
backslash before them, the usual blanks and the null character by their letters, and other control
characters of ASCII by their code in hexadecimal.  Everything else stands for itself.

Numbers are printed plainly, texts quoted, rows in square and pairs in round brackets; what may be
missing, and what is in descending order, names its kind before the bracket.

Main definitions:

* `Form` — the trees;
* `Form.inline`, `Form.block` — the two ways of printing one;
* `Form.escape`, `Form.quoted` — how one character is written, and the quoted text;
* `Form.row`, `Form.tuple`, `Form.dictionary` — the brackets in use;
* `Printable` — the types whose values have a printed form.

Main results:

* `Form.escape_ne_quote` — no character is written as a bare quote, so the closing one is found.
-/

import IndexedSkipList.Key

set_option relaxedAutoImplicit false
set_option autoImplicit false

namespace IndexedSkipList

/-- The printed form of a value. -/
inductive Form where
  /-- A piece of text. -/
  | atom (text : String)
  /-- A form that is labelled by another. -/
  | labelled (label content : Form)
  /-- Items between brackets. -/
  | group (opening closing : String) (items : List Form)

namespace Form

/-! ### On one line -/

mutual

/-- A form on one line. -/
def inline : Form → String
  | .atom text => text
  | .labelled label content => label.inline ++ ": " ++ content.inline
  | .group opening closing items => opening ++ String.intercalate ", " (inlineAll items) ++ closing

/-- Forms on one line each. -/
def inlineAll : List Form → List String
  | [] => []
  | item :: items => item.inline :: inlineAll items

end

/-! ### As a block -/

/-- Lines set in by four places. -/
def setIn (lines : List String) : List String := lines.map ("    " ++ ·)

/-- Lines of which the last goes on with `text`. -/
def endWith (text : String) (lines : List String) : List String :=
  lines.dropLast ++ [lines.getLastD "" ++ text]

/-- Lines of which the last goes on with the first of `more`. -/
def join (lines : List String) : (more : List String) → List String
  | [] => lines
  | first :: more => endWith first lines ++ more

mutual

/-- The lines of a form as a block. -/
def lines : Form → List String
  | .atom text => [text]
  | .labelled label content => join (endWith ": " label.lines) content.lines
  | .group opening closing items =>
      match items with
      | [] => [opening ++ closing]
      | item :: items =>
          opening :: setIn (endWith "," item.lines ++ linesAll items) ++ [closing]

/-- The lines of the items of a block. -/
def linesAll : List Form → List String
  | [] => []
  | item :: items => endWith "," item.lines ++ linesAll items

end

/-- A form as a block. -/
def block (form : Form) : String := String.intercalate "\n" form.lines

/-! ### Quoted text -/

/-- A control character of ASCII. -/
def isControl (c : Char) : Bool := c.toNat < 32 || c.toNat = 127

/-- How one character is written between quotes. -/
def escape (c : Char) : List Char :=
  if c = '"' then ['\\', '"']
  else if c = '\\' then ['\\', '\\']
  else if c = '\n' then ['\\', 'n']
  else if c = '\t' then ['\\', 't']
  else if c = '\r' then ['\\', 'r']
  else if c = '\x00' then ['\\', '0']
  else if isControl c then ['\\', 'u', '\x7b'] ++ Nat.toDigits 16 c.toNat ++ ['\x7d']
  else [c]

/-- A text between quotes. -/
def quoted (text : String) : String :=
  String.ofList ('"' :: text.toList.flatMap escape ++ ['"'])

theorem escape_ne_quote (c : Char) : escape c ≠ ['"'] := by
  unfold escape
  repeat' split
  all_goals simp_all

end Form

/-! ### Values with a printed form -/

/-- A type whose values have a printed form. -/
class Printable (A : Type) where
  /-- The printed form of a value. -/
  form : A → Form

namespace Form

/-- Items in square brackets. -/
def row (items : List Form) : Form := .group "[" "]" items

/-- Items in round brackets, after the name of their kind. -/
def tuple (kind : String) (items : List Form) : Form := .group (kind ++ "(") ")" items

/-- Labelled items in curly brackets. -/
def dictionary (entries : List (Form × Form)) : Form :=
  .group "\x7b" "\x7d" (entries.map fun (label, content) => .labelled label content)

end Form

instance : Printable Int where
  form n := .atom (toString n)

instance : Printable Nat where
  form n := .atom (toString n)

instance : Printable String where
  form text := .atom (Form.quoted text)

instance : Printable CaseFolded where
  form key := .atom (Form.quoted key.text)

instance : Printable Unit where
  form _ := .tuple "" []

instance {A : Type} [Printable A] : Printable (List A) where
  form items := .row (items.map Printable.form)

instance {A B : Type} [Printable A] [Printable B] : Printable (A × B) where
  form pair := .tuple "" [Printable.form pair.1, Printable.form pair.2]

instance {A : Type} [Printable A] : Printable (Option A) where
  form
    | none => .atom "None"
    | some a => .tuple "Some" [Printable.form a]

instance {A : Type} [Printable A] : Printable (Descending A) where
  form key := .tuple "Reverse" [Printable.form key.value]

end IndexedSkipList
