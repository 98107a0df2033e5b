import JsonnetLens.Text.Pattern
/-!
# Plain words that are not strings

In YAML 1.1 an unquoted word may be a truth value, a number, a null, a date or one of two special
marks.  A string that is spelled like one of them needs quotes.
-/
namespace JsonnetLens.Yaml

open Pattern

def truthWord : Pattern :=
  words ["yes".toList, "Yes".toList, "YES".toList, "no".toList, "No".toList, "NO".toList,
    "true".toList, "True".toList, "TRUE".toList, "false".toList, "False".toList, "FALSE".toList,
    "on".toList, "On".toList, "ON".toList, "off".toList, "Off".toList, "OFF".toList]

def nullWord : Pattern :=
  words ["~".toList, "null".toList, "Null".toList, "NULL".toList, []]

/-- The merge key and the default value. -/
def markWord : Pattern := words ["<<".toList, "=".toList]

def sign : Pattern := optional (anyOf "-+".toList)

def digitOr_ : Pattern := one fun c => c.isDigit || c = '_'

/-- A digit, then digits and underscores. -/
def digits : Pattern := seq digit (many digitOr_)

/-- The later places of a number to the base sixty. -/
def sixties : Pattern :=
  atLeastOne (all [char ':', optional (anyOf "012345".toList), digit])

def integerWord : Pattern :=
  all [sign, either [
    all [word "0b".toList, atLeastOne (anyOf "01_".toList)],
    all [char '0', atLeastOne (anyOf "01234567_".toList)],
    char '0',
    all [anyOf "123456789".toList, many digitOr_],
    all [word "0x".toList, atLeastOne (anyOf "0123456789abcdefABCDEF_".toList)],
    all [anyOf "123456789".toList, many digitOr_, sixties]]]

def exponentPart : Pattern :=
  optional (all [anyOf "eE".toList, anyOf "-+".toList, atLeastOne digit])

def floatWord : Pattern :=
  either [
    all [sign, digits, char '.', many digitOr_, exponentPart],
    all [char '.', digits, exponentPart],
    all [sign, digits, sixties, char '.', many digitOr_],
    all [sign, char '.', words ["inf".toList, "Inf".toList, "INF".toList]],
    all [char '.', words ["nan".toList, "NaN".toList, "NAN".toList]]]

def oneOrTwoDigits : Pattern := seq digit (optional digit)

def gap : Pattern := anyOf " \t".toList

def dateWord : Pattern :=
  let year := all [digit, digit, digit, digit]
  either [
    all [year, char '-', digit, digit, char '-', digit, digit],
    all [year, char '-', oneOrTwoDigits, char '-', oneOrTwoDigits,
      either [anyOf "Tt".toList, atLeastOne gap],
      oneOrTwoDigits, char ':', digit, digit, char ':', digit, digit,
      optional (all [char '.', many digit]),
      optional (all [many gap, either [char 'Z', all [anyOf "-+".toList, oneOrTwoDigits,
        optional (all [char ':', digit, digit])]]])]]

/-- Whether an unquoted word reads as something other than a string. -/
def isReserved (t : Text) : Bool :=
  (either [truthWord, nullWord, markWord, integerWord, floatWord, dateWord]).accepts t

end JsonnetLens.Yaml
