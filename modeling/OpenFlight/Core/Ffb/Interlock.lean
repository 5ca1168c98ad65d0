import OpenFlight.Core.Prim

/-!
# Physical Interlock

The challenge and response exchange that unlocks high torque.

A challenge carries a fresh identifier and a rolling token, expires after
`challengeTimeout`, and asks for a button combination held long enough.
`validateResponse` accepts a response to the active challenge once, clearing
the challenge and stamping the time. Satisfaction is spread over three
fields: `required` and `satisfied` are flags, and `lastSatisfied` is the time
stamp that `isSatisfied` checks for age, when there is one. `setRequired`
raises the `satisfied` flag without a time stamp.

Each call reads the clock at one instant `now`. The identifiers and tokens
wrap as the source's 64-bit and 32-bit counters do.

## Main definitions

* `InterlockChallenge`, `InterlockResponse`, `ButtonCombination`: The
  exchange.
* `isSatisfied`, `generateChallenge`, `validateResponse`, `reset`,
  `setRequired`: Its operations.

## Theorems

* `validateResponse_eq_ok_iff`: What it takes for a response to be accepted.
* `validateResponse_of_error`: A refused response changes nothing.
-/

namespace OpenFlight.Ffb

/-- The buttons of the device. -/
inductive ButtonId
  | trigger
  | thumbButton
  | baseButton1
  | baseButton2
  | hatUp
  | hatDown
  | hatLeft
  | hatRight
deriving DecidableEq

/-- The colors of its light. -/
inductive LedColor
  | red
  | green
  | blue
  | yellow
  | white
deriving DecidableEq

/-- How a challenge is shown. -/
structure BlinkPattern where
  sequence : List Nat
  repeatCount : Nat
  color : LedColor

/-- Two buttons that are held. -/
structure ButtonCombination where
  primary : ButtonId
  secondary : ButtonId
  holdDurationMs : Nat

/-- A challenge to the user. -/
structure InterlockChallenge where
  challengeId : Nat
  token : Nat
  blinkPattern : BlinkPattern
  expiresAt : Instant
  requiredButtons : ButtonCombination

/-- What the user did. -/
structure InterlockResponse where
  challengeId : Nat
  echoedToken : Nat
  buttonsPressed : List ButtonId
  holdDurationMs : Nat
deriving DecidableEq

/-- Why a response is refused. -/
inductive InterlockError
  | challengeExpired
  | invalidToken (expected actual : Nat)
  | wrongButtonCombination (expected : ButtonCombination) (actual : List ButtonId)
  | insufficientHoldDuration (expected actual : Nat)
  | noActiveChallenge
  | challengeAlreadyUsed
  | responseTooLate (expiredAgo : Duration)

/-- The display text of the error; buttons and durations are not rendered. -/
def InterlockError.message : InterlockError → String
  | .challengeExpired => "Challenge expired"
  | .invalidToken expected actual =>
      "Invalid token: expected " ++ toString expected ++ ", got " ++ toString actual
  | .wrongButtonCombination _ _ => "Wrong button combination"
  | .insufficientHoldDuration expected actual =>
      "Insufficient hold duration: expected " ++ toString expected ++ "ms, got " ++
        toString actual ++ "ms"
  | .noActiveChallenge => "No active challenge"
  | .challengeAlreadyUsed => "Challenge already used (replay attack prevention)"
  | .responseTooLate _ => "Response too late"

/-- The state of the interlock. -/
structure InterlockSystem where
  required : Bool
  activeChallenge : Option InterlockChallenge := none
  challengeHistory : List (Nat × Instant) := []
  satisfied : Bool := false
  lastSatisfied : Option Instant := none
  tokenCounter : Nat := 1
  challengeCounter : Nat := 1
  challengeTimeout : Duration := fromSecs 30
  satisfactionTimeout : Duration := fromSecs 300

/-- The on and off times of two bits of the token. -/
def blinkStep (bits : Nat) : List Nat :=
  match bits with
  | 0 => [200, 200]
  | 1 => [500, 200]
  | 2 => [200, 500]
  | _ => [500, 500]

/-- `generate_blink_pattern`: the low byte of the token, two bits at a time. -/
def generateBlinkPattern (token : Nat) : BlinkPattern :=
  { sequence := (List.range 4).flatMap fun i => blinkStep (token % 256 / 4 ^ i % 4)
    repeatCount := 3
    color := .yellow }

/-- `buttons_match`: as many buttons, and the same ones. -/
def buttonsMatch (required pressed : List ButtonId) : Bool :=
  required.length == pressed.length && required.all (pressed.contains ·)
    && pressed.all (required.contains ·)

namespace InterlockSystem

/-- Whether nothing is required, or a response was accepted recently. -/
def isSatisfied (s : InterlockSystem) (now : Instant) : Bool :=
  if !s.required then true
  else if !s.satisfied then false
  else match s.lastSatisfied with
    | some last => decide (durationSince now last ≤ s.satisfactionTimeout)
    -- A flag without a time stamp does not expire.
    | none => true

/-- The next rolling token, never zero. -/
def nextToken (s : InterlockSystem) : Nat :=
  if (s.tokenCounter + 1) % 2 ^ 32 = 0 then 1 else (s.tokenCounter + 1) % 2 ^ 32

/-- The challenge `generateChallenge` issues at `now`. -/
def nextChallenge (s : InterlockSystem) (now : Instant) : InterlockChallenge :=
  { challengeId := (s.challengeCounter + 1) % 2 ^ 64
    token := s.nextToken
    blinkPattern := generateBlinkPattern s.nextToken
    expiresAt := now + s.challengeTimeout
    requiredButtons :=
      { primary := .trigger, secondary := .thumbButton, holdDurationMs := 2000 } }

/-- The history with one more identifier, old entries dropped past a hundred. -/
def extendHistory (history : List (Nat × Instant)) (id : Nat) (now : Instant) :
    List (Nat × Instant) :=
  let history := history.filter (fun entry => entry.1 != id) ++ [(id, now)]
  -- Entries of the last hour survive the cut.
  if 100 < history.length then
    history.filter fun entry => decide (now - fromSecs 3600 < entry.2)
  else history

/-- A new challenge, the only one from then on. -/
def generateChallenge (s : InterlockSystem) (now : Instant) :
    InterlockSystem × InterlockChallenge :=
  let challenge := s.nextChallenge now
  ({ s with
    tokenCounter := s.nextToken
    challengeCounter := (s.challengeCounter + 1) % 2 ^ 64
    activeChallenge := some challenge
    challengeHistory := extendHistory s.challengeHistory challenge.challengeId now },
   challenge)

/-- The tests of `validate_response` against the active challenge, in the source's order. -/
def checkResponse (challenge : InterlockChallenge) (now : Instant)
    (response : InterlockResponse) : Except InterlockError Unit :=
  if response.challengeId ≠ challenge.challengeId then .error .noActiveChallenge
  else if challenge.expiresAt < now then
    .error (.responseTooLate (durationSince now challenge.expiresAt))
  else if response.echoedToken ≠ challenge.token then
    .error (.invalidToken challenge.token response.echoedToken)
  else if !buttonsMatch [challenge.requiredButtons.primary, challenge.requiredButtons.secondary]
      response.buttonsPressed then
    .error (.wrongButtonCombination challenge.requiredButtons response.buttonsPressed)
  else if response.holdDurationMs < challenge.requiredButtons.holdDurationMs then
    .error (.insufficientHoldDuration challenge.requiredButtons.holdDurationMs
      response.holdDurationMs)
  else .ok ()

/-- A response to the challenge. -/
def validateResponse (s : InterlockSystem) (now : Instant) (response : InterlockResponse) :
    InterlockSystem × Except InterlockError Bool :=
  match s.activeChallenge with
  | none => (s, .error .noActiveChallenge)
  | some challenge =>
      match checkResponse challenge now response with
      | .error e => (s, .error e)
      | .ok () =>
          ({ s with satisfied := true, lastSatisfied := some now, activeChallenge := none },
           .ok true)

/-- Nothing satisfied, no challenge open. -/
def reset (s : InterlockSystem) : InterlockSystem :=
  { s with satisfied := false, lastSatisfied := none, activeChallenge := none }

/-- Whether the interlock counts. -/
def setRequired (s : InterlockSystem) (required : Bool) : InterlockSystem :=
  let s := { s with required := required }
  -- Switching off raises the flag and sets no time stamp.
  if required then s else { s with satisfied := true }

end InterlockSystem

/-- The response names the challenge, echoes its token, presses exactly its
    buttons, and holds them long enough. -/
def ResponseMatches (challenge : InterlockChallenge) (response : InterlockResponse) : Prop :=
  response.challengeId = challenge.challengeId ∧
    response.echoedToken = challenge.token ∧
    buttonsMatch [challenge.requiredButtons.primary, challenge.requiredButtons.secondary]
      response.buttonsPressed = true ∧
    challenge.requiredButtons.holdDurationMs ≤ response.holdDurationMs

namespace InterlockSystem

theorem checkResponse_eq_ok_iff (challenge : InterlockChallenge) (now : Instant)
    (response : InterlockResponse) :
    checkResponse challenge now response = .ok () ↔
      ResponseMatches challenge response ∧ now ≤ challenge.expiresAt := by
  unfold checkResponse ResponseMatches
  split_ifs with hid hexpired htoken hbuttons hhold
  · simp [hid]
  · simp [Nat.not_le.mpr hexpired]
  · simp [htoken]
  · simp_all
  · simp [Nat.not_le.mpr hhold]
  · simp only [ne_eq, Decidable.not_not, not_lt, Bool.not_eq_true', Bool.not_eq_false] at *
    simp only [hid, htoken, hbuttons, hhold, hexpired, and_self]

variable (s : InterlockSystem)

section

variable (now : Instant) (response : InterlockResponse)

include now response

/-- A response is accepted exactly when it answers the active challenge and
    the challenge has not expired. -/
theorem validateResponse_eq_ok_iff (b : Bool) :
    (s.validateResponse now response).2 = .ok b ↔ b = true ∧ ∃ challenge,
      s.activeChallenge = some challenge ∧ ResponseMatches challenge response ∧
        now ≤ challenge.expiresAt := by
  unfold validateResponse
  cases hactive : s.activeChallenge with
  | none => simp
  | some challenge =>
      cases hcheck : checkResponse challenge now response with
      | error e =>
          have hno : ¬ (ResponseMatches challenge response ∧ now ≤ challenge.expiresAt) := by
            rw [← checkResponse_eq_ok_iff, hcheck]
            simp
          simp [hcheck, hno]
      | ok u =>
          have hyes := (checkResponse_eq_ok_iff challenge now response).mp hcheck
          simp [hcheck, hyes, eq_comm]

/-- An accepted response raises the flag, stamps the time and uses up the challenge. -/
theorem validateResponse_of_ok (b : Bool) (h : (s.validateResponse now response).2 = .ok b) :
    (s.validateResponse now response).1 =
      { s with satisfied := true, lastSatisfied := some now, activeChallenge := none } := by
  unfold validateResponse at h ⊢
  cases hactive : s.activeChallenge with
  | none => simp [hactive] at h
  | some challenge =>
      cases hcheck : checkResponse challenge now response with
      | error e => simp [hactive, hcheck] at h
      | ok u => simp only [hcheck]

/-- A refused response changes nothing. -/
theorem validateResponse_of_error (e : InterlockError)
    (h : (s.validateResponse now response).2 = .error e) :
    (s.validateResponse now response).1 = s := by
  unfold validateResponse at h ⊢
  cases hactive : s.activeChallenge with
  | none => rfl
  | some challenge =>
      cases hcheck : checkResponse challenge now response with
      | error e => simp only [hcheck]
      | ok u => simp [hactive, hcheck] at h

end

end InterlockSystem

end OpenFlight.Ffb
