import StorageIncentives.Json.Token

/-!
# Reading JSON documents

A document is put together from its tokens by a machine whose state holds the containers that are
still open, so there is no bound on how deeply a text may nest.
-/

namespace StorageIncentives

namespace Document

/-- The containers around a place in a document, the innermost first; members are latest first. -/
inductive Surrounding where
  | root
  | array (items : List Document) (outer : Surrounding)
  | object (members : List (Option String × Document)) (key : Option String) (outer : Surrounding)

/-- What is read so far, by what may come next. -/
inductive Reading where
  | value (place : Surrounding)
  /-- After an opening bracket: an item or the closing bracket. -/
  | firstItem (place : Surrounding)
  /-- After an opening brace: a key or the closing brace. -/
  | firstKey (place : Surrounding)
  | nextKey (members : List (Option String × Document)) (place : Surrounding)
  | colon (members : List (Option String × Document)) (key : Option String) (place : Surrounding)
  | done (value : Document) (place : Surrounding)

namespace Reading

def beginValue? (place : Surrounding) : Token → Option Reading
  | .openBracket => some (.firstItem place)
  | .openBrace => some (.firstKey place)
  | .text s => some (.done (.text s) place)
  | .scalar v => some (.done v place)
  | _ => none

def beginMember? (members : List (Option String × Document)) (place : Surrounding) :
    Token → Option Reading
  | .text key => some (.colon members key place)
  | _ => none

def endValue? (v : Document) : Surrounding → Token → Option Reading
  | .array items outer, .comma => some (.value (.array (v :: items) outer))
  | .array items outer, .closeBracket => some (.done (.array (v :: items).reverse) outer)
  | .object members key outer, .comma => some (.nextKey ((key, v) :: members) outer)
  | .object members key outer, .closeBrace =>
    some (.done (.object ((key, v) :: members).reverse) outer)
  | _, _ => none

def step? : Reading → Token → Option Reading
  | .value place, t => beginValue? place t
  | .firstItem place, .closeBracket => some (.done (.array []) place)
  | .firstItem place, t => beginValue? (.array [] place) t
  | .firstKey place, .closeBrace => some (.done (.object []) place)
  | .firstKey place, t => beginMember? [] place t
  | .nextKey members place, t => beginMember? members place t
  | .colon members key place, .colon => some (.value (.object members key place))
  | .colon .., _ => none
  | .done v place, t => endValue? v place t

def result? : Reading → Option Document
  | .done v .root => some v
  | _ => none

end Reading

def ofTokens? (tokens : List Token) : Option Document :=
  (tokens.foldlM Reading.step? (.value .root)).bind Reading.result?

def read? (text : String) : Option Document := (Token.scan? text.toList).bind ofTokens?

end Document

end StorageIncentives
