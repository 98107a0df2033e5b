import JsonnetLens.Text.Basic
/-!
# Code points, surrogates included

A JSON text can escape half of a surrogate pair, so the strings it denotes are wider than `Text`.
`WideText` holds every such string; `narrow` is the way back and puts the replacement character in
the place of each half that stands alone.  On the strings that came from a `Text` nothing is lost:
`narrow_ofText`.
-/
namespace JsonnetLens

/-- A code point, surrogates included. -/
abbrev CodePoint := Fin 0x110000

/-- A sequence of code points, surrogates included. -/
abbrev WideText := List CodePoint

namespace CodePoint

def ofChar (c : Char) : CodePoint :=
  ⟨c.toNat, by
    have h := c.valid
    simp only [UInt32.isValidChar, Nat.isValidChar] at h
    show c.val.toNat < 0x110000
    omega⟩

def toChar? (p : CodePoint) : Option Char :=
  if p.val.isValidChar then some (Char.ofNat p.val) else none

def isHighSurrogate (p : CodePoint) : Bool := 0xD800 ≤ p.val && p.val ≤ 0xDBFF

def isLowSurrogate (p : CodePoint) : Bool := 0xDC00 ≤ p.val && p.val ≤ 0xDFFF

@[simp] theorem val_ofChar (c : Char) : (ofChar c).val = c.toNat := rfl

@[simp] theorem toChar?_ofChar (c : Char) : (ofChar c).toChar? = some c := by
  have h : c.toNat.isValidChar := c.valid
  simp [toChar?, h]

end CodePoint

namespace WideText

def ofText (t : Text) : WideText := t.map CodePoint.ofChar

/-- Every surrogate becomes the replacement character. -/
def narrow (t : WideText) : Text := t.map fun p => p.toChar?.getD '\uFFFD'

@[simp] theorem narrow_ofText (t : Text) : narrow (ofText t) = t := by
  simp [narrow, ofText, Function.comp_def]

theorem ofText_injective {s t : Text} (h : ofText s = ofText t) : s = t := by
  rw [← narrow_ofText s, h, narrow_ofText]

end WideText
end JsonnetLens
