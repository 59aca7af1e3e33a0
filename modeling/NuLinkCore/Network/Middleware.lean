import Mathlib.Tactic

/-!
# The middleware client

Every request to a node is made by one wrapper.  The node matures and is verified, the request
is sent with the certificate that is at hand or else with a fresh one, and a response with a
status code from 300 on is raised as an exception.

Main results:

- Theorem {lit}`Exchange.request_eq_ok_iff`: which responses are returned.
- Theorem {lit}`Exchange.request_error`: which responses are raised, and as what.
-/

namespace NuLink

/-- What the libraries for HTTP and for certificates raise. -/
inductive TransportError where
  /-- {lit}`SSLError`, a connection error of {lit}`requests`. -/
  | sslError
  | connectionError
  | other
deriving DecidableEq

/-- {lit}`NodeSeemsToBeDown`, a tuple of exceptions. -/
def TransportError.nodeSeemsToBeDown : TransportError → Bool
  | .sslError => true
  | .connectionError => true
  | .other => false

/-- What one attempt to fetch a certificate brings. -/
inductive CertificateFetch where
  | fetched
  | timedOut
  | failed (error : TransportError)

/-- {lit}`get_certificate`, which tries again after a timeout of the socket. -/
def getCertificate (fetch : Nat → CertificateFetch) (currentAttempt : Nat) :
    Nat → Except TransportError Unit
  | 0 =>
      match fetch currentAttempt with
      | .fetched => .ok ()
      | .timedOut => .error .connectionError
      | .failed error => .error error
  | retryAttempts + 1 =>
      match fetch currentAttempt with
      | .fetched => .ok ()
      | .timedOut => getCertificate fetch (currentAttempt + 1) retryAttempts
      | .failed error => .error error

/-- The exceptions of a request; those from {lit}`badRequest` on are
{lit}`UnexpectedResponse` or one of its subclasses. -/
inductive RequestError where
  | verification
  | unreachable
  | transport (error : TransportError)
  | badRequest
  | paymentRequired
  | unauthorized
  | notFound
  | unexpectedResponse (status : Nat)
deriving DecidableEq

/-- What {lit}`except UnexpectedResponse` catches. -/
def RequestError.isUnexpectedResponse : RequestError → Bool
  | .verification => false
  | .unreachable => false
  | .transport _ => false
  | .badRequest => true
  | .paymentRequired => true
  | .unauthorized => true
  | .notFound => true
  | .unexpectedResponse _ => true

/-- What is met outside when a request is made to a node: whether the node matures and is
verified, what the request brings with the certificate at hand, if there is one, the attempts
to fetch a certificate, and what the request brings with the fetched one. -/
structure Exchange where
  verified : Bool
  cached : Option (Except TransportError Nat)
  fetch : Nat → CertificateFetch
  fresh : Except TransportError Nat

namespace Exchange

/-- The request with a certificate that is fetched for it. -/
def executeFresh (exchange : Exchange) : Except RequestError Nat :=
  match getCertificate exchange.fetch 0 3 with
  | .error error =>
      if error.nodeSeemsToBeDown then .error .unreachable else .error (.transport error)
  | .ok _ => exchange.fresh.mapError .transport

/-- {lit}`_execute_method`: the status code of the response. -/
def executeMethod (exchange : Exchange) : Except RequestError Nat :=
  match exchange.cached with
  | none => exchange.executeFresh
  | some (.ok status) => .ok status
  | some (.error .sslError) => exchange.executeFresh
  | some (.error error) => .error (.transport error)

/-- The handling of the response in {lit}`method_wrapper`. -/
def handleResponse (status : Nat) : Except RequestError Nat :=
  if status ≥ 300 then
    if status = 400 then .error .badRequest
    else if status = 404 then .error .notFound
    else if status = 402 then .error .paymentRequired
    else if status = 403 then .error .unauthorized
    else .error (.unexpectedResponse status)
  else .ok status

/-- {lit}`method_wrapper` for a request to a node. -/
def request (exchange : Exchange) : Except RequestError Nat :=
  if exchange.verified then exchange.executeMethod.bind handleResponse else .error .verification

/-- The node is verified and responds with a status code. -/
def Responds (exchange : Exchange) (status : Nat) : Prop :=
  exchange.verified = true ∧ exchange.executeMethod = .ok status

instance (exchange : Exchange) (status : Nat) : Decidable (exchange.Responds status) :=
  inferInstanceAs (Decidable (_ ∧ _))

theorem Responds.unique {exchange : Exchange} {status other : Nat}
    (h : exchange.Responds status) (hother : exchange.Responds other) : other = status :=
  Except.ok.inj (hother.2.symm.trans h.2)

theorem handleResponse_of_lt {status : Nat} (h : status < 300) :
    handleResponse status = .ok status :=
  if_neg (by omega)

/-- A response from 300 on is raised, as {lit}`NotFound` for 404 only. -/
theorem handleResponse_of_le {status : Nat} (h : 300 ≤ status) :
    ∃ error, handleResponse status = .error error ∧ error.isUnexpectedResponse = true ∧
      (error = .notFound ↔ status = 404) := by
  rw [handleResponse, if_pos h]
  by_cases hbad : status = 400
  · exact ⟨.badRequest, if_pos hbad, rfl, by simp [hbad]⟩
  by_cases hnotFound : status = 404
  · exact ⟨.notFound, by rw [if_neg hbad, if_pos hnotFound], rfl, by simp [hnotFound]⟩
  rw [if_neg hbad, if_neg hnotFound]
  by_cases hpayment : status = 402
  · exact ⟨.paymentRequired, if_pos hpayment, rfl, by simp [hnotFound]⟩
  rw [if_neg hpayment]
  by_cases hforbidden : status = 403
  · exact ⟨.unauthorized, if_pos hforbidden, rfl, by simp [hnotFound]⟩
  · exact ⟨.unexpectedResponse status, if_neg hforbidden, rfl, by simp [hnotFound]⟩

/-- What the exchange itself raises is no {lit}`UnexpectedResponse`. -/
theorem executeMethod_error {exchange : Exchange} {error : RequestError}
    (h : exchange.executeMethod = .error error) : error.isUnexpectedResponse = false := by
  have hfresh : exchange.executeFresh = .error error → error.isUnexpectedResponse = false := by
    intro hfresh
    rw [executeFresh] at hfresh
    split at hfresh
    · split at hfresh <;> cases hfresh <;> rfl
    · cases hreply : exchange.fresh with
      | ok status => simp [hreply, Except.mapError] at hfresh
      | error cause =>
          rw [hreply] at hfresh
          cases hfresh
          rfl
  rw [executeMethod] at h
  split at h
  · exact hfresh h
  · cases h
  · exact hfresh h
  · cases h
    rfl

/-- The response that a request returns. -/
theorem request_eq_ok_iff (exchange : Exchange) (status : Nat) :
    exchange.request = .ok status ↔ exchange.Responds status ∧ status < 300 := by
  rw [request, Responds]
  by_cases hverified : exchange.verified = true
  · rw [if_pos hverified, and_iff_right hverified]
    cases hexecute : exchange.executeMethod with
    | error error => simp [Except.bind]
    | ok other =>
        by_cases hother : other < 300
        · simp only [Except.bind, handleResponse_of_lt hother, Except.ok.injEq]
          constructor
          · rintro rfl
            exact ⟨rfl, hother⟩
          · exact And.left
        · rcases handleResponse_of_le (not_lt.mp hother) with ⟨error, herror, -⟩
          simp only [Except.bind, herror, reduceCtorEq, Except.ok.injEq, false_iff, not_and]
          rintro rfl
          exact hother
  · simp [hverified]

/-- An {lit}`UnexpectedResponse` comes from a response, and is {lit}`NotFound` for 404 only. -/
theorem request_error {exchange : Exchange} {error : RequestError}
    (h : exchange.request = .error error) (hunexpected : error.isUnexpectedResponse = true) :
    ∃ status, exchange.Responds status ∧ 300 ≤ status ∧ (error = .notFound ↔ status = 404) := by
  rw [request] at h
  split_ifs at h with hverified
  · cases hexecute : exchange.executeMethod with
    | error cause =>
        rw [hexecute] at h
        cases h
        exact absurd hunexpected (by simp [executeMethod_error hexecute])
    | ok status =>
        rw [hexecute] at h
        by_cases hstatus : status < 300
        · simp [Except.bind, handleResponse_of_lt hstatus] at h
        · rcases handleResponse_of_le (not_lt.mp hstatus) with ⟨other, hother, -, hnotFound⟩
          simp only [Except.bind, hother, Except.error.injEq] at h
          exact ⟨status, ⟨hverified, hexecute⟩, not_lt.mp hstatus, h ▸ hnotFound⟩
  · cases h
    cases hunexpected

/-- A response from 300 on is raised as an {lit}`UnexpectedResponse`. -/
theorem request_of_le {exchange : Exchange} {status : Nat} (h : exchange.Responds status)
    (hle : 300 ≤ status) :
    ∃ error, exchange.request = .error error ∧ error.isUnexpectedResponse = true := by
  rcases handleResponse_of_le hle with ⟨error, herror, hunexpected, -⟩
  refine ⟨error, ?_, hunexpected⟩
  rw [request, if_pos h.1, h.2]
  exact herror

end Exchange

end NuLink
