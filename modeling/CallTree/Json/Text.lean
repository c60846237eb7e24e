import CallTree.Json.Rows
import CallTree.Json.Token.Misfit

/-!
# JSON text

`Value.render` writes a value without blanks, and `Value.parse?` reads any JSON text. Nothing but
blanks may stand before or behind the value.

`Value.parseRows?` reads a text in which some arrays have to be rows of bytes. Whoever reads such a
row tries for one byte more than it needs, and is satisfied if none comes. So an item that is no
byte, or only a comma, is passed over if the bracket that closes the row comes behind it. A full
row is never followed by an item.
-/

namespace CallTree

namespace Json

namespace Value

/-- The characters of a value. -/
def chars (v : Value) : List Char :=
  v.tokens.flatMap Token.chars

/-- The text of a value. -/
def render (v : Value) : String :=
  String.ofList v.chars

/-- Reads characters on from what has been read before them, and gives the value that is complete
behind the last one. -/
def readOn? (rows : Rows) (progress : Progress) (cs : List Char) : Option Value :=
  match cs with
  | [] => progress.value?
  | c :: rest =>
    if Token.isBlank c then readOn? rows progress rest
    else match progress.fullRow? rows with
      | some closed =>
        match _passed : Token.afterRow? (c :: rest) with
        | some rest => readOn? rows closed rest
        | none => none
      | none =>
        match _taken : Token.next? (c :: rest) with
        | some (token, rest) =>
          match progress.accept token with
          | some next => readOn? rows next rest
          | none => none
        | none => none
termination_by cs.length
decreasing_by
  · exact Nat.lt_succ_self _
  · exact Token.length_of_afterRow? _passed
  · exact Token.length_of_next? _taken

/-- The value that a text stands for, some of whose arrays have to be rows of bytes. -/
def parseRows? (rows : Rows) (s : String) : Option Value :=
  readOn? rows (.value []) s.toList

/-- The value that a text stands for. -/
def parse? (s : String) : Option Value :=
  parseRows? Rows.none s

end Value

end Json

end CallTree
