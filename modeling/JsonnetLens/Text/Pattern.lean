import JsonnetLens.Text.Basic
/-!
# Patterns

Regular patterns over characters, matched against a whole text by derivatives: what a pattern asks
of the text after its first character is again a pattern.
-/
namespace JsonnetLens

inductive Pattern where
  | never
  | empty
  | one (ok : Char → Bool)
  | seq (a b : Pattern)
  | alt (a b : Pattern)
  | many (a : Pattern)

namespace Pattern

def nullable : Pattern → Bool
  | never => false
  | empty => true
  | one _ => false
  | seq a b => a.nullable && b.nullable
  | alt a b => a.nullable || b.nullable
  | many _ => true

/-- `seq` without the parts that can be seen to match nothing or only the empty text. -/
def andThen : Pattern → Pattern → Pattern
  | never, _ => never
  | _, never => never
  | empty, b => b
  | a, empty => a
  | a, b => seq a b

/-- `alt` without the parts that can be seen to match nothing. -/
def orElse : Pattern → Pattern → Pattern
  | never, b => b
  | a, never => a
  | a, b => alt a b

/-- What is left to match after the character `c`. -/
def after (c : Char) : Pattern → Pattern
  | never => never
  | empty => never
  | one ok => if ok c then empty else never
  | seq a b =>
    if a.nullable then orElse (andThen (a.after c) b) (b.after c) else andThen (a.after c) b
  | alt a b => orElse (a.after c) (b.after c)
  | many a => andThen (a.after c) (many a)

def accepts (p : Pattern) (t : Text) : Bool := (t.foldl (fun p c => p.after c) p).nullable

def char (c : Char) : Pattern := one (· = c)

def anyOf (t : Text) : Pattern := one t.contains

def digit : Pattern := one Char.isDigit

def word (t : Text) : Pattern := t.foldr (fun c p => andThen (char c) p) empty

def words (ts : List Text) : Pattern := ts.foldr (fun t p => alt (word t) p) never

def all (ps : List Pattern) : Pattern := ps.foldr andThen empty

def either (ps : List Pattern) : Pattern := ps.foldr orElse never

def optional (p : Pattern) : Pattern := alt p empty

def atLeastOne (p : Pattern) : Pattern := seq p (many p)

end Pattern
end JsonnetLens
