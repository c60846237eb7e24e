import CallTree.Json.Token

/-!
# Values as rows of tokens

`Value.tokens` writes a value as a row of tokens, and `Progress.accept` reads one back, a token at
a time. The reader keeps the containers that are still open, the innermost first, and what may come
next (`Progress`); a token that may not come next is refused.
-/

namespace CallTree

namespace Json

/-! ## Writing -/

namespace Value

mutual

/-- The tokens of a value. -/
def tokens : Value → List Token
  | null => [.null]
  | bool b => [.bool b]
  | number n => [.number n]
  | text content => [.text content]
  | array [] => [.openArray, .closeArray]
  | array (item :: rest) =>
    .openArray :: (item.tokens ++ (itemsAfter rest ++ [.closeArray]))
  | object [] => [.openObject, .closeObject]
  | object ((name, value) :: rest) =>
    .openObject :: .text name :: .colon :: (value.tokens ++ (membersAfter rest ++ [.closeObject]))

/-- The tokens of the items behind the first one. -/
def itemsAfter : List Value → List Token
  | [] => []
  | item :: rest => .comma :: (item.tokens ++ itemsAfter rest)

/-- The tokens of the members behind the first one. -/
def membersAfter : List (Text × Value) → List Token
  | [] => []
  | (name, value) :: rest =>
    .comma :: .text name :: .colon :: (value.tokens ++ membersAfter rest)

end

end Value

/-! ## Reading -/

/-- A container that is still open, with what stands in it so far, most recent first. -/
inductive Container
  | array (items : List Value)
  /-- An object in whose last member the value is still missing. -/
  | object (members : List (Text × Value)) (name : Text)

/-- What has been read and what may come next. The open containers are given innermost first. -/
inductive Progress
  /-- A value must come. -/
  | value (inside : List Container)
  /-- The first item of an array or its end must come. -/
  | firstItem (inside : List Container)
  /-- The first name of an object or its end must come. -/
  | firstName (inside : List Container)
  /-- The name of one more member must come. -/
  | name (inside : List Container) (members : List (Text × Value))
  /-- The colon behind a name must come. -/
  | colon (inside : List Container) (members : List (Text × Value)) (name : Text)
  /-- A value is complete. -/
  | complete (inside : List Container) (value : Value)

namespace Progress

/-- Takes a token with which a value begins. -/
def startValue (inside : List Container) : Token → Option Progress
  | .null => some (.complete inside .null)
  | .bool b => some (.complete inside (.bool b))
  | .number n => some (.complete inside (.number n))
  | .text content => some (.complete inside (.text content))
  | .openArray => some (.firstItem inside)
  | .openObject => some (.firstName inside)
  | _ => none

/-- Takes one token. -/
def accept : Progress → Token → Option Progress
  | value inside, token => startValue inside token
  | firstItem inside, .closeArray => some (.complete inside (.array []))
  | firstItem inside, token => startValue (.array [] :: inside) token
  | firstName inside, .closeObject => some (.complete inside (.object []))
  | firstName inside, .text content => some (.colon inside [] content)
  | name inside members, .text content => some (.colon inside members content)
  | colon inside members content, .colon => some (.value (.object members content :: inside))
  | complete (.array items :: inside) v, .comma => some (.value (.array (v :: items) :: inside))
  | complete (.array items :: inside) v, .closeArray =>
    some (.complete inside (.array (v :: items).reverse))
  | complete (.object members content :: inside) v, .comma =>
    some (.name inside ((content, v) :: members))
  | complete (.object members content :: inside) v, .closeObject =>
    some (.complete inside (.object ((content, v) :: members).reverse))
  | _, _ => none

/-- The value that has been read, if nothing is open. -/
def value? : Progress → Option Value
  | complete [] v => some v
  | _ => none

end Progress

end Json

end CallTree
