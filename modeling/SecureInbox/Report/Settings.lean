import SecureInbox.Intake.Endpoint
import SecureInbox.Report.Form

/-! # Settings for other programs

The parts of settings that the pipeline works with. -/
set_option autoImplicit false

namespace SecureInbox

instance : Shown SessionPolicy :=
  ⟨fun p => .object [("enabled", shown p.enabled), ("max_skip", shown p.maxSkip),
    ("min", shown p.versions.min.code.toNat), ("max", shown p.versions.max.code.toNat)]⟩

/-- A policy differs from the standard one where it says so. -/
instance : Given SessionPolicy := ⟨fun v => do
  let standard := SessionPolicy.standard
  return ⟨(← v.given? "enabled").getD standard.enabled, (← v.given? "max_skip").getD standard.maxSkip,
    ⟨(← v.given? "min").getD standard.versions.min, (← v.given? "max").getD standard.versions.max⟩⟩⟩

/-- Limits differ from the standard ones where they say so. -/
instance : Given ContentLimits := ⟨fun v => do
  let standard := ContentLimits.standard
  return ⟨(← v.given? "max_text_bytes").getD standard.textBytes,
    (← v.given? "max_group_name_bytes").getD standard.groupNameBytes⟩⟩

instance : Given Settings := ⟨fun v => Settings.ofNode? (Json.Node.ofValue v)⟩

def Settings.summary (s : Settings) (policy : SessionPolicy) : List (String × Json) := [
  ("json_text", shown s.toJson.compact), ("versions", shown policy.versions),
  ("limits", shown [s.limits.textBytes, s.limits.groupNameBytes]), ("fs", shown policy)]

end SecureInbox
