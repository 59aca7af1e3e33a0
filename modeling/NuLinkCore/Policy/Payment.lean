import NuLinkCore.Characters.Alice

/-!
# Quotes of the subscription manager

A quote of the subscription manager prices the time between the start and the end of a policy.
Any of the start, the end, the duration and the value may be given; a number that is zero
counts as missing.  What is missing is derived from the rest or from the clock where the
method provides for it, and stays missing otherwise.

Main results:

- Theorem {lit}`SubscriptionManagerPayment.quote_valueError_iff`: which parameters are rejected.
- Theorem {lit}`SubscriptionManagerPayment.quote_of_accepted`: the quote for all others.
- Theorem {lit}`SubscriptionManagerPayment.quote_consistent_iff`: exactly when a quote spans the
  time that it prices.
- Theorem {lit}`Alice.generatePolicyParameters_consistent_iff`: when Alice's parameters do.
-/

namespace NuLink

/-- The truth value of an optional number: zero and {lit}`None` are false. -/
def nonzero (x : Option Int) : Bool := decide (x.getD 0 ≠ 0)

/-- Whether a number is given and negative. -/
def isNegative (x : Option Int) : Bool := decide (x.getD 0 < 0)

/-- What {lit}`quote` and {lit}`validate_price` raise. -/
inductive PaymentError where
  | valueError (message : String)
  /-- Arithmetic with {lit}`None`. -/
  | typeError
deriving DecidableEq

/-- What is asked of {lit}`quote`, besides the shares. -/
structure QuoteRequest where
  commencement : Option Int
  expiration : Option Int
  duration : Option Int
  value : Option Int
  rate : Option Int

/-- The payment method, with the rate that the contract fixes. -/
structure SubscriptionManagerPayment where
  feeRate : Nat

namespace SubscriptionManagerPayment

def contractName : String := "SubscriptionManager"

variable (payment : SubscriptionManagerPayment)

/-- The start of the policy: the commencement, else what the end and the duration leave, else
now. -/
def quotedCommencement (now : Nat) (request : QuoteRequest) : Int :=
  if !nonzero request.commencement then
    if nonzero request.expiration && nonzero request.duration then
      request.expiration.getD 0 - request.duration.getD 0
    else now
  else request.commencement.getD 0

/-- The duration of the policy: the one given, else the time from the start to the end if both
are nonzero. -/
def quotedDuration (commencement : Int) (request : QuoteRequest) : Option Int :=
  if !nonzero request.duration then
    if nonzero request.expiration && nonzero (some commencement) then
      some (request.expiration.getD 0 - commencement)
    else request.duration
  else request.duration

/-- {lit}`quote`. -/
def quote (now shares : Nat) (request : QuoteRequest) : Except PaymentError Quote :=
  if nonzero request.rate then
    .error (.valueError (contractName ++ " uses a fixed rate."))
  else if !(nonzero request.duration || nonzero request.expiration || nonzero request.value) then
    .error (.valueError
      "Policy end time must be specified with 'expiration', 'duration' or 'value'.")
  else if isNegative request.commencement || isNegative request.expiration ||
      isNegative request.duration || isNegative request.value || isNegative request.rate then
    .error (.valueError "Negative policy parameters are not allowed. Be positive.")
  else
    let commencement := quotedCommencement now request
    match quotedDuration commencement request with
    | none => .error .typeError
    | some duration =>
        .ok {
          rate := payment.feeRate
          value := payment.feeRate * duration * shares
          shares := shares
          commencement := some commencement
          expiration := request.expiration
          duration := some duration }

/-- {lit}`validate_price`. -/
def validatePrice (value : Int) (duration : Option Int) (shares : Nat) :
    Except PaymentError Bool :=
  match duration with
  | none => .error .typeError
  | some duration =>
      let expectedPrice := (shares : Int) * duration * payment.feeRate
      if value ≠ expectedPrice then
        .error (.valueError ("Policy value (" ++ toString value ++
          ") doesn't match expected value (" ++ toString expectedPrice ++ ")"))
      else .ok true

/-! ## Rejected parameters -/

/-- A rate is given, or neither an end nor a duration nor a value is, or a parameter is
negative. -/
def Rejected (request : QuoteRequest) : Prop :=
  nonzero request.rate = true ∨
    (nonzero request.duration = false ∧ nonzero request.expiration = false ∧
      nonzero request.value = false) ∨
    isNegative request.commencement = true ∨ isNegative request.expiration = true ∨
      isNegative request.duration = true ∨ isNegative request.value = true ∨
        isNegative request.rate = true

instance (request : QuoteRequest) : Decidable (Rejected request) :=
  inferInstanceAs (Decidable (_ ∨ _))

/-- The quote for parameters that are not rejected. -/
theorem quote_of_accepted (now shares : Nat) {request : QuoteRequest}
    (haccepted : ¬ Rejected request) :
    payment.quote now shares request =
      match quotedDuration (quotedCommencement now request) request with
      | none => .error .typeError
      | some duration => .ok ⟨payment.feeRate, payment.feeRate * duration * shares,
          some (quotedCommencement now request), request.expiration, some duration, shares⟩ := by
  simp only [Rejected, not_or, not_and, Bool.not_eq_true, Bool.not_eq_false] at haccepted
  rcases haccepted with ⟨hrate, hgiven, hcommencement, hexpiration, hduration, hvalue, hnegative⟩
  have hsome : (nonzero request.duration || nonzero request.expiration || nonzero request.value) =
      true := by
    cases hd : nonzero request.duration with
    | true => rfl
    | false =>
        cases he : nonzero request.expiration with
        | true => rfl
        | false => simp [hgiven hd he]
  rw [quote, hrate, hsome, hcommencement, hexpiration, hduration, hvalue, hnegative]
  rfl

/-- Exactly the rejected parameters raise a {lit}`ValueError`. -/
theorem quote_valueError_iff (now shares : Nat) (request : QuoteRequest) :
    (∃ message, payment.quote now shares request = .error (.valueError message)) ↔
      Rejected request := by
  constructor
  · rintro ⟨message, hraised⟩
    by_contra haccepted
    rw [payment.quote_of_accepted now shares haccepted] at hraised
    split at hraised
    · cases hraised
    · cases hraised
  · intro hrejected
    unfold quote
    split_ifs with hrate hmissing hnegative
    · exact ⟨_, rfl⟩
    · exact ⟨_, rfl⟩
    · exact ⟨_, rfl⟩
    · simp only [Bool.or_eq_true, Bool.not_eq_true', not_or, Bool.not_eq_true,
        Bool.not_eq_false] at hrate hmissing hnegative
      simp only [Rejected] at hrejected
      simp_all

/-! ## Consistent quotes -/

/-- The quote has a positive duration, ends that long after it starts, and charges the rate for
every share and unit of time. -/
def Consistent (shares : Nat) (quote : Quote) : Prop :=
  ∃ commencement expiration duration, quote.commencement = some commencement ∧
    quote.expiration = some expiration ∧ quote.duration = some duration ∧ 0 < duration ∧
      expiration = commencement + duration ∧
        quote.value = payment.feeRate * duration * shares ∧ 0 ≤ quote.value

/-- The start of a policy for which no duration is given. -/
def startTime (now : Nat) (request : QuoteRequest) : Int :=
  if nonzero request.commencement then request.commencement.getD 0 else now

/-- The parameters span a time: a duration with a start and the matching end, or a duration with
an end and no start, or no duration and an end after the start. -/
def SpansTime (now : Nat) (request : QuoteRequest) : Prop :=
  (nonzero request.duration = true ∧ nonzero request.commencement = true ∧
      request.expiration = some (request.commencement.getD 0 + request.duration.getD 0)) ∨
    (nonzero request.duration = true ∧ nonzero request.commencement = false ∧
      nonzero request.expiration = true) ∨
    (nonzero request.duration = false ∧ nonzero request.expiration = true ∧
      startTime now request ≠ 0 ∧ startTime now request < request.expiration.getD 0)

theorem nonzero_iff {x : Option Int} : nonzero x = true ↔ x.getD 0 ≠ 0 :=
  decide_eq_true_iff

theorem eq_some_of_nonzero {x : Option Int} (h : nonzero x = true) : x = some (x.getD 0) := by
  cases x with
  | none => simp [nonzero] at h
  | some n => rfl

/-- No parameter is negative unless it is rejected. -/
theorem nonneg_of_accepted {request : QuoteRequest} (haccepted : ¬ Rejected request) :
    0 ≤ request.commencement.getD 0 ∧ 0 ≤ request.expiration.getD 0 ∧
      0 ≤ request.duration.getD 0 := by
  simp only [Rejected, isNegative, decide_eq_true_eq, not_or, not_lt] at haccepted
  exact ⟨haccepted.2.2.1, haccepted.2.2.2.1, haccepted.2.2.2.2.1⟩

/-- A duration that counts as missing is not positive. -/
theorem not_pos_of_missing {x : Option Int} (h : nonzero x = false) {duration : Int}
    (hsome : x = some duration) : ¬ 0 < duration := by
  intro hpos
  have hne : nonzero x = true := nonzero_iff.mpr (by rw [hsome]; exact hpos.ne')
  rw [h] at hne
  cases hne

/-- The quoted duration is positive and reaches from the quoted start to the end. -/
def Reaches (now : Nat) (request : QuoteRequest) : Prop :=
  ∃ duration, quotedDuration (quotedCommencement now request) request = some duration ∧
    0 < duration ∧ request.expiration = some (quotedCommencement now request + duration)

/-- With a duration the quote reaches the end exactly when the parameters span a time. -/
theorem reaches_iff_of_duration (now : Nat) {request : QuoteRequest}
    (haccepted : ¬ Rejected request) (hd : nonzero request.duration = true) :
    Reaches now request ↔ SpansTime now request := by
  rcases nonneg_of_accepted haccepted with ⟨hcommencement, hexpiration, hduration⟩
  have hpos : 0 < request.duration.getD 0 := by
    have hne := nonzero_iff.mp hd
    omega
  have hquoted : quotedDuration (quotedCommencement now request) request =
      some (request.duration.getD 0) := by
    rw [quotedDuration, hd]
    exact eq_some_of_nonzero hd
  rw [Reaches, hquoted]
  cases hc : nonzero request.commencement with
  | true =>
      have hstart : quotedCommencement now request = request.commencement.getD 0 := by
        rw [quotedCommencement, hc]
        rfl
      simp [SpansTime, hd, hc, hstart, hpos]
  | false =>
      cases he : nonzero request.expiration with
      | true =>
          have hstart : quotedCommencement now request =
              request.expiration.getD 0 - request.duration.getD 0 := by
            rw [quotedCommencement, hc, he, hd]
            rfl
          simp only [SpansTime, hd, hc, he, hstart, Option.some.injEq, exists_eq_left',
            sub_add_cancel, ← eq_some_of_nonzero he]
          simp [hpos]
      | false =>
          have hstart : quotedCommencement now request = now := by
            rw [quotedCommencement, hc, he]
            rfl
          have hzero : request.expiration.getD 0 = 0 := by
            by_contra hne
            rw [nonzero_iff.mpr hne] at he
            cases he
          -- An end at time zero lies before every start that is not in the past of it.
          constructor
          · rintro ⟨duration, hsome, hpositive, hend⟩
            rw [hend, hstart, Option.getD_some] at hzero
            omega
          · intro hspans
            simp [SpansTime, hd, hc, he] at hspans

/-- Without a duration the quote reaches the end exactly when the parameters span a time. -/
theorem reaches_iff_of_missing (now : Nat) {request : QuoteRequest}
    (hd : nonzero request.duration = false) :
    Reaches now request ↔ SpansTime now request := by
  have hstart : quotedCommencement now request = startTime now request := by
    rw [quotedCommencement, startTime, hd, Bool.and_false]
    cases nonzero request.commencement <;> rfl
  rw [Reaches, hstart]
  by_cases hspannable : nonzero request.expiration = true ∧ startTime now request ≠ 0
  · rcases hspannable with ⟨he, hzero⟩
    have hquoted : quotedDuration (startTime now request) request =
        some (request.expiration.getD 0 - startTime now request) := by
      have hnonzero : nonzero (some (startTime now request)) = true := nonzero_iff.mpr hzero
      rw [quotedDuration, hd, he, hnonzero]
      rfl
    rw [hquoted]
    simp only [SpansTime, hd, he, Option.some.injEq, exists_eq_left', add_sub_cancel,
      ← eq_some_of_nonzero he]
    simp [hzero]
  · have hquoted : quotedDuration (startTime now request) request = request.duration := by
      have hnone : (nonzero request.expiration && nonzero (some (startTime now request))) =
          false := by
        rw [Bool.and_eq_false_iff]
        by_contra hboth
        simp only [not_or, Bool.not_eq_false] at hboth
        exact hspannable ⟨hboth.1, nonzero_iff.mp hboth.2⟩
      rw [quotedDuration, hd, hnone]
      rfl
    rw [hquoted]
    constructor
    · rintro ⟨duration, hsome, hpos, -⟩
      exact absurd hpos (not_pos_of_missing hd hsome)
    · rintro (⟨hduration, -⟩ | ⟨hduration, -⟩ | ⟨-, he, hzero, -⟩)
      · rw [hd] at hduration
        cases hduration
      · rw [hd] at hduration
        cases hduration
      · exact absurd ⟨he, hzero⟩ hspannable

/-- Parameters with a quote are not rejected. -/
theorem accepted_of_quote (now shares : Nat) {request : QuoteRequest} {quote : Quote}
    (hquote : payment.quote now shares request = .ok quote) : ¬ Rejected request := by
  intro hrejected
  rcases (payment.quote_valueError_iff now shares request).mpr hrejected with ⟨message, hraised⟩
  rw [hquote] at hraised
  cases hraised

/-- What a quote consists of. -/
theorem exists_duration_of_quote (now shares : Nat) {request : QuoteRequest} {quote : Quote}
    (hquote : payment.quote now shares request = .ok quote) :
    ∃ duration, quotedDuration (quotedCommencement now request) request = some duration ∧
      quote = ⟨payment.feeRate, payment.feeRate * duration * shares,
        some (quotedCommencement now request), request.expiration, some duration, shares⟩ := by
  have haccepted := payment.accepted_of_quote now shares hquote
  rw [payment.quote_of_accepted now shares haccepted] at hquote
  split at hquote
  · cases hquote
  · rename_i duration hduration
    cases hquote
    exact ⟨duration, hduration, rfl⟩

theorem reaches_iff (now : Nat) {request : QuoteRequest} (haccepted : ¬ Rejected request) :
    Reaches now request ↔ SpansTime now request := by
  cases hd : nonzero request.duration with
  | true => exact reaches_iff_of_duration now haccepted hd
  | false => exact reaches_iff_of_missing now hd

/-- A quote for parameters that are not rejected is consistent exactly when they span a time. -/
theorem consistent_iff (now shares : Nat) {request : QuoteRequest} {quote : Quote}
    (hquote : payment.quote now shares request = .ok quote) :
    payment.Consistent shares quote ↔ SpansTime now request := by
  rw [← reaches_iff now (payment.accepted_of_quote now shares hquote), Reaches]
  rcases payment.exists_duration_of_quote now shares hquote with ⟨duration, hduration, rfl⟩
  rw [hduration]
  constructor
  · rintro ⟨commencement, expiration, length, hstart, hend, hlength, hpos, hspan, -⟩
    cases hstart
    cases hlength
    exact ⟨duration, rfl, hpos, by rw [← hspan]; exact hend⟩
  · rintro ⟨length, hlength, hpos, hend⟩
    cases hlength
    exact ⟨_, _, duration, rfl, hend, rfl, hpos, rfl, rfl, by positivity⟩

/-- The price of a quote is accepted. -/
theorem validatePrice_quote (now shares : Nat) {request : QuoteRequest} {quote : Quote}
    (hquote : payment.quote now shares request = .ok quote) :
    payment.validatePrice quote.value quote.duration shares = .ok true := by
  rcases payment.exists_duration_of_quote now shares hquote with ⟨duration, -, rfl⟩
  have hprice : (payment.feeRate : Int) * duration * shares =
      (shares : Int) * duration * payment.feeRate := by ring
  rw [validatePrice]
  simp [hprice]

/-- Parameters that span a time have a quote. -/
theorem exists_quote (now shares : Nat) {request : QuoteRequest} (haccepted : ¬ Rejected request)
    (hspans : SpansTime now request) : ∃ quote, payment.quote now shares request = .ok quote := by
  rcases (reaches_iff now haccepted).mpr hspans with ⟨duration, hduration, -⟩
  rw [payment.quote_of_accepted now shares haccepted, hduration]
  exact ⟨_, rfl⟩

/-- Parameters that are not rejected get a consistent quote with an accepted price, exactly when
they are rejected or span a time. -/
theorem quote_consistent_iff (now shares : Nat) (request : QuoteRequest) :
    ((∀ message, payment.quote now shares request ≠ .error (.valueError message)) →
        ∃ quote, payment.quote now shares request = .ok quote ∧ payment.Consistent shares quote ∧
          payment.validatePrice quote.value quote.duration shares = .ok true) ↔
      Rejected request ∨ SpansTime now request := by
  by_cases hrejected : Rejected request
  · rcases (payment.quote_valueError_iff now shares request).mpr hrejected with
      ⟨message, hraised⟩
    exact ⟨fun _ => Or.inl hrejected, fun _ h => absurd hraised (h message)⟩
  · have hnone : ∀ message, payment.quote now shares request ≠ .error (.valueError message) :=
      fun message hraised =>
        hrejected ((payment.quote_valueError_iff now shares request).mp ⟨message, hraised⟩)
    constructor
    · intro h
      rcases h hnone with ⟨quote, hquote, hconsistent, -⟩
      exact Or.inr ((payment.consistent_iff now shares hquote).mp hconsistent)
    · rintro (h | hspans) _
      · exact absurd h hrejected
      · rcases payment.exists_quote now shares hrejected hspans with ⟨quote, hquote⟩
        exact ⟨quote, hquote, (payment.consistent_iff now shares hquote).mpr hspans,
          payment.validatePrice_quote now shares hquote⟩

/-- A duration alone gets a quote without an end, and a value alone an exception that is not a
{lit}`ValueError`. -/
theorem quote_inconsistent :
    (∃ endless, SubscriptionManagerPayment.quote ⟨5⟩ 1000 2 ⟨none, none, some 60, none, none⟩ =
          .ok endless ∧ endless.expiration = none ∧ ¬ Consistent ⟨5⟩ 2 endless) ∧
      SubscriptionManagerPayment.quote ⟨5⟩ 1000 2 ⟨none, none, none, some 600, none⟩ =
        .error .typeError := by
  refine ⟨⟨⟨5, 600, some 1000, none, some 60, 2⟩, rfl, rfl, ?_⟩, rfl⟩
  rintro ⟨_, _, _, _, hend, -⟩
  cases hend

/-- The payment method of a policy, with the time of its quotes and the outcome of its
payments. -/
def paymentMethod {core : NucypherCore} (now : Nat) (pay : Policy core → Bool) :
    PaymentMethod core where
  quote shares duration commencement expiration rate value :=
    (payment.quote now shares ⟨commencement, expiration, duration, value, rate⟩).toOption
  validatePrice shares value duration :=
    match payment.validatePrice value duration shares with
    | .ok accepted => accepted
    | .error _ => false
  pay := pay

end SubscriptionManagerPayment

/-- What Alice asks a quote for. -/
def Alice.quoteRequest {core : NucypherCore} (alice : Alice core) (request : GrantRequest core) :
    QuoteRequest where
  commencement := request.commencement
  expiration := request.expiration
  duration := numberOr request.duration alice.duration
  value := request.value
  rate := request.rate <|> alice.rate

/-- Alice's parameters have a consistent quote exactly when what she asks for spans a time. -/
theorem Alice.generatePolicyParameters_consistent_iff {core : NucypherCore} {alice : Alice core}
    {request : GrantRequest core} {params : PolicyParameters core}
    (payment : SubscriptionManagerPayment) (now : Nat) (pay : Policy core → Bool)
    (hpayment : alice.paymentMethod = payment.paymentMethod now pay)
    (hparams : alice.generatePolicyParameters request = some params) :
    payment.Consistent params.shares params.quote ↔
      SubscriptionManagerPayment.SpansTime now (alice.quoteRequest request) := by
  unfold generatePolicyParameters at hparams
  split at hparams
  · cases hparams
  · rcases Option.map_eq_some_iff.mp hparams with ⟨quote, hquote, rfl⟩
    rw [hpayment] at hquote
    have hok : ∀ {result : Except PaymentError Quote}, result.toOption = some quote →
        result = .ok quote := by
      intro result hresult
      cases result with
      | error raised => cases hresult
      | ok returned => exact congrArg Except.ok (Option.some.inj hresult)
    exact payment.consistent_iff now _ (hok hquote)

end NuLink
