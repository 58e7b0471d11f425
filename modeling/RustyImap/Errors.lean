import RustyImap.ToolName

/-!
# Error codes and error values

`ErrorCode` and `RimapError` follow `rimap-core/src/error.rs`, `AuthzError`
follows `rimap-authz/src/error.rs`.  The boxed `source` chains carry no
behaviour any modelled function reads and are left out.
-/

namespace RustyImap

/-- Stable machine-readable error codes. -/
inductive ErrorCode where
  | invalidInput
  | postureDenied
  | rateLimited
  | circuitOpen
  | notFound
  | imapProtocol
  | smtpProtocol
  | tls
  | auth
  | connectionLost
  | timeout
  | attachmentTooLarge
  | protectedFolder
  | expungeDenied
  | config
  | internal
  | noAccount
  | unknownAccount
  | cancelled
  | uidValidityChanged
deriving DecidableEq, Repr

/-- Top-level tool error returned from dispatch. -/
inductive RimapError where
  | authz (code : ErrorCode) (message : String)
  | imap (code : ErrorCode) (message : String)
  | smtp (code : ErrorCode) (message : String)
  | audit (code : ErrorCode) (message : String)
  | config (message : String)
  | internal (message : String)
  | internalSourced (message : String)
  | noAccount (available : List String)
  | unknownAccount (name : String) (available : List String)
  | uidValidityChanged (folder : String) (expected actual : Nat)
  | rateLimited (retryAfterMs : Nat)
  | circuitOpen (retryAfterMs : Nat)
  | attachmentTooLarge (kind : String) (limit : Nat)
deriving DecidableEq, Repr

/-- The stable error code carried by this error. -/
def RimapError.code : RimapError → ErrorCode
  | .authz code _ => code
  | .imap code _ => code
  | .smtp code _ => code
  | .audit code _ => code
  | .config _ => .config
  | .internal _ => .internal
  | .internalSourced _ => .internal
  | .noAccount _ => .noAccount
  | .unknownAccount _ _ => .unknownAccount
  | .uidValidityChanged _ _ _ => .uidValidityChanged
  | .rateLimited _ => .rateLimited
  | .circuitOpen _ => .circuitOpen
  | .attachmentTooLarge _ _ => .attachmentTooLarge

/-- Errors of the posture, breaker and rate-limit stages. -/
inductive AuthzError where
  | postureDenied (tool : ToolName)
  | rateLimited (retryAfterMs : Nat)
  | circuitOpen (retryAfterMs : Nat)
deriving DecidableEq, Repr

/-! ## Steps of a fallible computation -/

theorem bind_eq_ok {ε α β : Type} {x : Except ε α} {f : α → Except ε β} {b : β}
    (h : (x >>= f) = .ok b) : ∃ a, x = .ok a ∧ f a = .ok b := by
  rcases x with e | a
  · cases h
  · exact ⟨a, rfl, h⟩

end RustyImap
