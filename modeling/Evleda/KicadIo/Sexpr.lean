/-
S-expressions, their bounded reader and their deterministic writer.

A KiCad file is one expression: an atom, a quoted string or a list of expressions
in parentheses.  The reader is one loop over the characters of the text with a
stack of the lists that are open; it counts tokens, levels and characters as it
goes and raises as soon as a limit is passed.

The loop jumps over the characters of a string or an atom once it has read it.
Here it carries how many characters are still to be jumped over, so it is a
recursion on the text alone.
-/
import Evleda.Lib.Outcome
import Evleda.Lib.Text

namespace Evleda.KicadIo

/-- What the exchange raises: the three errors of its own, and the errors of the interpreter that
nothing catches. -/
inductive Failure where
  | syntaxError (message : String)
  | invariantError (message : String)
  | unsupportedConstruct (message : String)
  | indexError
  | keyError
  | valueError
  | overflow
  deriving DecidableEq, Repr

/-! ### Expressions -/

/-- A character with a meaning of its own. -/
def isReserved (c : Char) : Bool := c == '(' || c == ')' || c == '"'

/-- A character an atom does not go on with. -/
def endsAtom (c : Char) : Bool := Text.isSpace c || isReserved c

/-- A text that can be written without quotes. -/
def IsAtomText (text : String) : Prop := text ≠ "" ∧ text.toList.all (fun c => !endsAtom c) = true

instance (text : String) : Decidable (IsAtomText text) := inferInstanceAs (Decidable (_ ∧ _))

structure Atom where
  value : String
  spelled : IsAtomText value
  deriving DecidableEq

inductive SExpr where
  | atom (atom : Atom)
  | quoted (value : String)
  | list (items : List SExpr)

theorem isAtomText_of_checks {value : String}
    (hspace : value ≠ "" ∧ value.toList.any Text.isSpace = false)
    (hreserved : value.toList.any isReserved = false) : IsAtomText value := by
  refine ⟨hspace.1, List.all_eq_true.mpr fun c hc => ?_⟩
  have hnospace := List.any_eq_false.mp hspace.2 c hc
  have hplain := List.any_eq_false.mp hreserved c hc
  simp [endsAtom, hnospace, hplain]

/-- The constructor of `Atom`. -/
def Atom.make (value : String) : Except Failure Atom :=
  if hspace : value ≠ "" ∧ value.toList.any Text.isSpace = false then
    if hreserved : value.toList.any isReserved = false then
      .ok ⟨value, isAtomText_of_checks hspace hreserved⟩
    else .error (.syntaxError "S-expression atom contains a reserved character")
  else .error (.syntaxError "S-expression atoms must be non-empty and whitespace-free")

/-- A text becomes an atom exactly when it can be written without quotes. -/
theorem Atom.make_ok {value : String} {a : Atom} : Atom.make value = .ok a ↔ a.value = value := by
  unfold Atom.make
  constructor
  · intro h
    split at h
    · split at h
      · cases h
        rfl
      · cases h
    · cases h
  · rintro rfl
    have hplain : ∀ c ∈ a.value.toList, Text.isSpace c = false ∧ isReserved c = false := by
      intro c hc
      simpa [endsAtom] using List.all_eq_true.mp a.spelled.2 c hc
    have hspace : a.value ≠ "" ∧ a.value.toList.any Text.isSpace = false :=
      ⟨a.spelled.1, List.any_eq_false.mpr fun c hc => by simp [(hplain c hc).1]⟩
    have hreserved : a.value.toList.any isReserved = false :=
      List.any_eq_false.mpr fun c hc => by simp [(hplain c hc).2]
    rw [dif_pos hspace, dif_pos hreserved]

def word (text : String) (h : decide (IsAtomText text) = true := by exact Eq.refl true) : Atom :=
  ⟨text, of_decide_eq_true h⟩

namespace SExpr

def isList : SExpr → Bool
  | .list _ => true
  | _ => false

/-- The text of the atom a list starts with. -/
def head : SExpr → Option String
  | .list (.atom a :: _) => some a.value
  | _ => none

def scalarText (label : String) : SExpr → Except Failure String
  | .atom a => .ok a.value
  | .quoted value => .ok value
  | .list _ => .error (.syntaxError (label ++ " must be an atom or quoted string"))

end SExpr

def node (head : Atom) (children : List SExpr) : SExpr := .list (.atom head :: children)

/-! ### The reader -/

structure ParseLimits where
  maximumBytes : Nat := 32 * 1024 * 1024
  maximumTokens : Nat := 2000000
  maximumDepth : Nat := 128
  maximumAtomCharacters : Nat := 1000000
  positive : 0 < maximumBytes ∧ 0 < maximumTokens ∧ 0 < maximumDepth ∧
    0 < maximumAtomCharacters := by decide

/-- `DEFAULT_LIMITS` -/
def defaultLimits : ParseLimits := {}

/-- What the loop has read: the finished expressions, the lists that are open, the innermost first,
and the number of tokens. -/
structure Scan where
  roots : List SExpr := []
  stack : List (List SExpr) := []
  tokenCount : Nat := 0

section Reader

variable (limits : ParseLimits)

def countToken (s : Scan) : Except Failure Scan := do
  require (s.tokenCount + 1 ≤ limits.maximumTokens) (.syntaxError ("KiCad source exceeds the " ++
    toString limits.maximumTokens ++ "-token parser limit"))
  return { s with tokenCount := s.tokenCount + 1 }

/-- `append_token` -/
def appendToken (token : SExpr) (s : Scan) : Except Failure Scan := do
  let s ← countToken limits s
  match s.stack with
  | top :: below => return { s with stack := (top ++ [token]) :: below }
  | [] => return { s with roots := s.roots ++ [token] }

/-- `translations` -/
def translation (escaped : Char) : Option Char :=
  if escaped = 'n' then some '\n'
  else if escaped = 'r' then some '\r'
  else if escaped = 't' then some '\t'
  else if escaped = '"' then some '"'
  else if escaped = '\\' then some '\\'
  else none

/-- The loop over a quoted string, after its opening quote and some of its characters.  It returns
all of them and how many characters of the text it read. -/
def readQuoted (value : List Char) : List Char → Except Failure (List Char × Nat)
  | [] => .error (.syntaxError "unterminated quoted string")
  | current :: rest =>
      if current = '"' then .ok (value, 1)
      else if current = '\\' then
        match rest with
        | [] => .error (.syntaxError "unterminated escape in quoted string")
        | escaped :: rest =>
            match translation escaped with
            | none =>
                .error (.syntaxError ("unsupported quoted-string escape '\\" ++
                  String.ofList [escaped] ++ "'"))
            | some c => do
                let (value, length) ← readQuoted (value ++ [c]) rest
                return (value, length + 2)
      else do
        require (32 ≤ current.toNat ∨ current = '\t')
          (.syntaxError "quoted string contains an unescaped control character")
        require ((value ++ [current]).length ≤ limits.maximumAtomCharacters)
          (.syntaxError "quoted string exceeds the parser character limit")
        let (value, length) ← readQuoted (value ++ [current]) rest
        return (value, length + 1)

/-- The loop over the text.  `skip` characters have been read already, `index` counts from the
start. -/
def scan : Nat → Nat → List Char → Scan → Except Failure Scan
  | _, _, [], s => .ok s
  | skip + 1, index, _ :: rest, s => scan skip (index + 1) rest s
  | 0, index, character :: rest, s =>
      if Text.isSpace character then scan 0 (index + 1) rest s
      else if character = '(' then do
        let s ← countToken limits s
        let s := { s with stack := [] :: s.stack }
        require (s.stack.length ≤ limits.maximumDepth)
          (.syntaxError ("KiCad source exceeds the " ++ toString limits.maximumDepth ++
            "-level nesting limit"))
        scan 0 (index + 1) rest s
      else if character = ')' then
        match s.stack with
        | [] => .error (.syntaxError ("unexpected ')' at character " ++ toString index))
        | completed :: below => do
            let s ← appendToken limits (.list completed) { s with stack := below }
            scan 0 (index + 1) rest s
      else if character = '"' then do
        let (value, length) ← readQuoted limits [] rest
        let s ← appendToken limits (.quoted (String.ofList value)) s
        scan length (index + 1) rest s
      else do
        let value := (character :: rest).takeWhile (fun c => !endsAtom c)
        require (value ≠ []) (.syntaxError ("invalid character at offset " ++ toString index))
        require (value.length ≤ limits.maximumAtomCharacters)
          (.syntaxError "atom exceeds the parser character limit")
        let atom ← Atom.make (String.ofList value)
        let s ← appendToken limits (.atom atom) s
        scan (value.length - 1) (index + 1) rest s

/-- `source.startswith(b"\xef\xbb\xbf")` -/
def hasByteOrderMark (source : ByteArray) : Bool := [0xEF, 0xBB, 0xBF].isPrefixOf source.data.toList

/-- `parse` -/
def parse (source : ByteArray) : Except Failure SExpr := do
  require (source.size ≤ limits.maximumBytes) (.syntaxError ("KiCad source exceeds the " ++
    toString limits.maximumBytes ++ "-byte parser limit"))
  require (hasByteOrderMark source = false)
    (.syntaxError "UTF-8 BOM is not accepted in KiCad project input")
  match String.fromUTF8? source with
  | none => .error (.syntaxError "KiCad project input must be valid UTF-8")
  | some text => do
      let s ← scan limits 0 0 text.toList {}
      require (s.stack.isEmpty) (.syntaxError "unterminated S-expression list")
      match s.roots with
      | [root] => return root
      | _ =>
          .error (.syntaxError "KiCad project input must contain exactly one root expression")

end Reader

/-! ### The writer -/

/-- `text.replace(old, new)` for one character. -/
def replaceChar (old : Char) (new text : List Char) : List Char :=
  text.flatMap fun c => if c = old then new else [c]

/-- `_quoted_text` -/
def quotedText (value : String) : List Char :=
  let escaped := replaceChar '\t' ['\\', 't'] (replaceChar '\r' ['\\', 'r'] (replaceChar '\n'
    ['\\', 'n'] (replaceChar '"' ['\\', '"'] (replaceChar '\\' ['\\', '\\'] value.toList))))
  '"' :: (escaped ++ ['"'])

mutual

/-- The expression on one line. -/
def canonicalText : SExpr → List Char
  | .atom a => a.value.toList
  | .quoted value => quotedText value
  | .list [] => ['(', ')']
  | .list (first :: rest) => '(' :: (canonicalText first ++ canonicalRest rest)

/-- The items after the first, with the closing parenthesis. -/
def canonicalRest : List SExpr → List Char
  | [] => [')']
  | item :: rest => ' ' :: (canonicalText item ++ canonicalRest rest)

end

def indentation (depth : Nat) : List Char := List.replicate (2 * depth) ' '

mutual

/-- `_pretty` -/
def pretty : SExpr → Nat → List Char
  | .list (first :: children), depth =>
      let inline := canonicalText (.list (first :: children))
      if inline.length ≤ 100 ∧ children.any SExpr.isList = false then inline
      else if children.all (fun child => !child.isList) then inline
      else
        '(' :: (canonicalText first ++
          (prettyLines children (depth + 1) ++ '\n' :: (indentation depth ++ [')'])))
  | expression, _ => canonicalText expression

/-- The children of a list, each on a line of its own; only lists are indented. -/
def prettyLines : List SExpr → Nat → List Char
  | [], _ => []
  | child :: rest, depth =>
      '\n' :: ((if child.isList then indentation depth else []) ++ pretty child depth) ++
        prettyLines rest depth

end

/-- `render` -/
def render (expression : SExpr) : ByteArray :=
  (String.ofList (pretty expression 0 ++ ['\n'])).toByteArray

end Evleda.KicadIo
