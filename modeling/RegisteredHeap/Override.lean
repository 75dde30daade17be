import RegisteredHeap.Settings
import RegisteredHeap.Text.Blank
import RegisteredHeap.Text.Numeral

/-! # Overrides

Environment variables that replace settings. A variable that is not text, or whose text is
malformed, leaves its setting as it was.
-/

namespace RegisteredHeap

/-- The bytes of the variables that are set. -/
abbrev Environment := String → Option ByteArray

namespace Environment

def empty : Environment := fun _ => none

/-- The first entry of a name counts. -/
def ofList (entries : List (String × ByteArray)) : Environment := fun name => entries.lookup name

end Environment

namespace Override

open Text

/-- The text of a variable without the blanks around it. -/
def content? (raw : ByteArray) : Option (List Char) :=
  (String.fromUTF8? raw).map fun s => trim s.toList

def number? (raw : ByteArray) : Option Nat := (content? raw).bind word?

def switchOf? (s : List Char) : Option Bool :=
  let word := String.ofList (s.map Char.toLower)
  if word ∈ ["1", "true", "yes", "on"] then some true
  else if word ∈ ["0", "false", "no", "off"] then some false
  else none

def switch? (raw : ByteArray) : Option Bool := (content? raw).bind switchOf?

end Override

/-- The settings with each one replaced whose variable holds a value for it. -/
def Settings.override (s : Settings) (env : Environment) : Settings :=
  .of (((env switchOverride).bind Override.switch?).getD s.neverFree)
    fun k => ((env k.overrideName).bind Override.number?).getD (s.get k)

end RegisteredHeap
