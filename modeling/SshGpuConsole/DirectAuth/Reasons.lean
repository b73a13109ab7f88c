import SshGpuConsole.Lib.PyLines

/-!
# What a failed probe means

The reason taxonomy of `direct_auth/reasons.py` and the one-line detail the planner keeps of a probe
(`_probe_detail`, `transfer/planner.py`).
-/

namespace SshGpuConsole.DirectAuth
open Shell (Text)
open PyText PyLines

/-- The members of `DirectAuthReason` that setup and revoke answer with. -/
inductive Reason where
  | routeUnreachable
  | hostKeyUnknown
  | hostKeyMismatch
  | authenticationFailed
  | dedicatedKeyMissing
  | remoteKeyInvalid
  | keygenMissingSource
  | unknown
  deriving DecidableEq, Repr

/-- The wire value of a reason. -/
def Reason.value : Reason → Text
  | .routeUnreachable => "route_unreachable".toList
  | .hostKeyUnknown => "host_key_unknown".toList
  | .hostKeyMismatch => "host_key_mismatch".toList
  | .authenticationFailed => "authentication_failed".toList
  | .dedicatedKeyMissing => "dedicated_key_missing".toList
  | .remoteKeyInvalid => "remote_key_invalid".toList
  | .keygenMissingSource => "keygen_missing_source".toList
  | .unknown => "unknown".toList

/-- `str.lower` of one character, as far as it comes to ASCII: the capitals, the Kelvin sign and the dotted
capital i. Every other character stands for its own lower case, which has no ASCII character in it. -/
def lowerChar (c : Char) : Text :=
  if 65 ≤ c.toNat && c.toNat ≤ 90 then [Char.ofNat (c.toNat + 32)]
  else if c.toNat = 0x212a then ['k']
  else if c.toNat = 0x130 then ['i', Char.ofNat 0x307]
  else [c]

/-- `str.lower`. -/
def lower (t : Text) : Text := t.flatMap lowerChar

/-- `part in t`. -/
def contains (t : Text) (part : String) : Bool := t.tails.any part.toList.isPrefixOf

/-- `_classify_probe_failure`. -/
def classifyProbeFailure (detail : Text) (dedicated : Bool) : Reason :=
  let lowered := lower detail
  -- ssh reports a missing identity file before the final "Permission denied"
  if dedicated && ((contains lowered "load key" && contains lowered "no such file") ||
      (contains lowered "identity file" && contains lowered "not accessible")) then .dedicatedKeyMissing
  else if contains lowered "permission denied" then .authenticationFailed
  else if contains lowered "host key verification failed" then .hostKeyMismatch
  else if contains lowered "host key" then .hostKeyUnknown
  else if contains lowered "connection refused" || contains lowered "connection timed out" ||
      contains lowered "timed out" || contains lowered "could not resolve" ||
      contains lowered "no route to host" then .routeUnreachable
  else .unknown

/-- `_PROBE_DETAIL_MAX_CHARS`. -/
def probeDetailMaxChars : Nat := 160

/-- `_probe_detail`. -/
def probeDetail (stderr : Text) (exit_code : Int) : Text :=
  let kept := ((charBreaks.lines stderr).map strip).filter (· ≠ [])
  let detail := strip (("; ".toList.intercalate kept).take probeDetailMaxChars)
  if detail = [] then "ssh exited with code ".toList ++ ofInt exit_code else detail

/-- The detail of an exception with that text: `f"probe error: (str(exc)[:120])"`. -/
def probeError (text : Text) : Text := "probe error: ".toList ++ text.take 120

/-- The reasons that show a broken key, authorization or host trust. -/
def Reason.broken : Reason → Bool
  | .dedicatedKeyMissing | .authenticationFailed | .hostKeyMismatch | .hostKeyUnknown => true
  | _ => false

example : classifyProbeFailure "ssh: connect to host b port 22: Connection refused".toList true = .routeUnreachable := by
  decide +kernel

/-- A probe that failed is classified as an unreachable route, as broken, or not at all. -/
lemma classifyProbeFailure_cases (detail : Text) (dedicated : Bool) :
    classifyProbeFailure detail dedicated = .routeUnreachable ∨
      (classifyProbeFailure detail dedicated).broken = true ∨
      classifyProbeFailure detail dedicated = .unknown := by
  unfold classifyProbeFailure
  dsimp only
  split_ifs
  · exact .inr (.inl rfl)
  · exact .inr (.inl rfl)
  · exact .inr (.inl rfl)
  · exact .inr (.inl rfl)
  · exact .inl rfl
  · exact .inr (.inr rfl)

end SshGpuConsole.DirectAuth
