import Systemstat.Data
import Systemstat.Text.Utf16

/-! # Strings and errors of Windows

What the calls of the other modules hand out: text in UTF-16 or in bytes behind a
pointer, and the error of the call that failed last.
-/

namespace Systemstat.Windows

open Nom Text

/-- The units behind the pointer; it may be null. -/
def u16ArrayToString : Option Units → Str
  | none => []
  | some p => decodeUtf16 (unitString p)

def cCharArrayToString (p : Bytes) : Str := toStringLossy (cString p)

def lastOsError (code : Int) : IoResult Unit := .error (.os code)

theorem u16ArrayToString_utf16 {s : Str} (h : Char.ofNat 0 ∉ s) (behind : Units) :
    u16ArrayToString (some (utf16 s ++ 0#16 :: behind)) = s := by
  rw [u16ArrayToString, unitString_append (utf16_ne_zero h), decodeUtf16_utf16]

theorem cCharArrayToString_utf8 {s : Str} (h : Char.ofNat 0 ∉ s) :
    cCharArrayToString (utf8 (s ++ [Char.ofNat 0])) = s := by
  rw [cCharArrayToString, cString_utf8 h, toStringLossy_utf8]

end Systemstat.Windows
