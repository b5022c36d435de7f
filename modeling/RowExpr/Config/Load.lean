/-
  Loading settings: read, then check.

  A text that cannot be read is a fault of the text; settings that were read but are not
  allowed are refused afterwards, so a bound of zero is reported only if the rest of the text
  is right.
-/
import RowExpr.Config.Json
import RowExpr.Error

namespace RowExpr.Config

/-- The settings, if they are allowed. -/
def validate (config : Config) : Except Error Config :=
  if config.isValid then .ok config else .error .zeroCacheBound

/-- Settings from JSON text. -/
def ofText (text : String) : Except Error Config :=
  match Json.decodeText decode text with
  | .ok config => config.validate
  | .error fault => .error (.configFault fault)

/-- Settings from the bytes of a file, `none` if there is no such file. -/
def ofFile (contents : Option ByteArray) : Except Error Config :=
  match contents with
  | none => .error .configMissing
  | some bytes => match String.fromUTF8? bytes with
    | some text => ofText text
    | none => .error .configNotText

theorem validate_eq_ok_iff {config checked : Config} :
    config.validate = .ok checked ↔ config.isValid = true ∧ checked = config := by
  unfold validate
  by_cases h : config.isValid = true
  · rw [if_pos h]
    exact ⟨fun e => by cases e; exact ⟨h, rfl⟩, fun e => by rw [e.2]⟩
  · rw [if_neg h]
    exact ⟨fun e => (by cases e), fun e => absurd e.1 h⟩

end RowExpr.Config
