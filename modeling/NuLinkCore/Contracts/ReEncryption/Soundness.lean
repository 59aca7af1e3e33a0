import NuLinkCore.Contracts.ReEncryption.Multiplication
import NuLinkCore.Contracts.ReEncryption.Validator

/-!
# What an accepted capsule fragment proves

The capsule and the fragment hold compressed points.  When a fragment is accepted, each of
them is a point of the curve and the three equations of the proof hold in the group, for
the challenge that is computed from these points and the metadata.  Nothing is assumed of
the data that the prover supplies.

Multiplication is checked by a trick with the precompile that recovers signers.  It is
assumed here of the calls of one run only: over all calls it would fail, since an address
is shorter than a point.

Main results:

- Theorem {lit}`Compressed.unique`: a compressed point belongs to one point of the curve.
- Theorem {lit}`AreCompressed.challenge_eq`: the challenge in terms of the points.
- Theorem {lit}`validateCFrag_decides`: acceptance implies the equations, and the equations
  with true coordinates imply acceptance.
-/

namespace NuLink
namespace ReEncryption

open Evm Umbral WeierstrassCurve

/-! ## Compressed points -/

/-- Which point of the curve a compressed point stands for. -/
def Compressed (point : Point) (P : Group) : Prop := ∃ y, Decompresses point y P

/-- The parity tells a second coordinate from its negative. -/
theorem eq_of_sq_eq_of_parity {y y' : Nat} (hy : y < fieldOrder) (hy' : y' < fieldOrder)
    (hsq : (y : Fp) ^ 2 = (y' : Fp) ^ 2) (hparity : y % 2 = y' % 2) : y = y' := by
  rcases sq_eq_sq_iff_eq_or_eq_neg.mp hsq with heq | hneg
  · exact (natCast_eq_iff hy hy').mp heq
  · by_cases hzero : y' = 0
    · rw [hzero, Nat.cast_zero, neg_zero, ← Nat.cast_zero, natCast_eq_iff hy fieldOrder_pos] at hneg
      rw [hneg, hzero]
    · rw [← sub_cast hy'.le, natCast_eq_iff hy (by omega)] at hneg
      have hodd : fieldOrder % 2 = 1 := by decide
      omega

/-- A compressed point stands for one point. -/
theorem Compressed.unique {point : Point} {P Q : Group} (hP : Compressed point P)
    (hQ : Compressed point Q) : P = Q := by
  rcases hP with ⟨y, hP⟩
  rcases hQ with ⟨y', hQ⟩
  rcases hP.represents.eq_some with ⟨h, -⟩
  rcases hQ.represents.eq_some with ⟨h', -⟩
  have hsq : (y : Fp) ^ 2 = (y' : Fp) ^ 2 :=
    (nonsingular_iff.mp h).trans (nonsingular_iff.mp h').symm
  have hparity : y % 2 = y' % 2 := by
    have hsign := hP.sign
    have hsign' := hQ.sign
    omega
  have heq : y = y' :=
    eq_of_sq_eq_of_parity hP.represents.y_lt hQ.represents.y_lt hsq hparity
  subst heq
  exact hP.represents.unique hQ.represents

/-- The compressed form of a point, packed; the point at infinity has none. -/
def compress : Group → Bytes
  | .zero => []
  | .some x y _ => pointBytes ⟨2 + y.val % 2, x.val⟩

theorem Compressed.pointBytes_eq {point : Point} {P : Group} (h : Compressed point P) :
    pointBytes point = compress P := by
  rcases h with ⟨y, hsign, hrepresents⟩
  rcases hrepresents.eq_some with ⟨hpoint, rfl⟩
  rw [compress, ZMod.val_natCast_of_lt hrepresents.x_lt, ZMod.val_natCast_of_lt hrepresents.y_lt,
    ← hsign]

/-- The point U of the parameters. -/
theorem exists_pointU :
    ∃ U, Decompresses ⟨umbralParameterUSign, umbralParameterUXCoord⟩ umbralParameterUYCoord U := by
  apply checkCompressedPoint_iff.mp
  decide +kernel

noncomputable def pointU : Group := exists_pointU.choose

theorem decompresses_pointU :
    Decompresses ⟨umbralParameterUSign, umbralParameterUXCoord⟩ umbralParameterUYCoord pointU :=
  exists_pointU.choose_spec

/-! ## Products -/

/-- What is assumed of the arguments: the point is on the curve, its first coordinate is between
1 and the order less 1, and the scalar is not a multiple of the order. -/
structure EcmulCall.InDomain (call : EcmulCall) : Prop where
  point : ∃ P, Represents call.x1 call.y1 P
  x_pos : 1 ≤ call.x1
  x_lt : call.x1 ≤ curveOrder - 1
  scalar : ¬ curveOrder ∣ call.scalar

/-- The second point is the product of the first one. -/
def EcmulCall.IsProduct (call : EcmulCall) : Prop :=
  ∃ P Q, Represents call.x1 call.y1 P ∧ Represents call.qx call.qy Q ∧ Q = call.scalar • P

/-- A call decides whether the second point is the product. -/
def EcmulExact (evm : Evm) (call : EcmulCall) : Prop :=
  ecmulVerify evm call = true ↔ call.InDomain ∧ call.IsProduct

theorem EcmulExact.product {evm : Evm} {call : EcmulCall} (h : EcmulExact evm call)
    (hverify : ecmulVerify evm call = true) {P : Group} (hP : Represents call.x1 call.y1 P) :
    Represents call.qx call.qy (call.scalar • P) := by
  rcases (h.mp hverify).2 with ⟨P', Q, hP', hQ, rfl⟩
  rw [hP.unique hP']
  exact hQ

/-! ## One equation -/

/-- An equation that passes every check holds in the group. -/
theorem Passes.equation {evm : Evm} {z h : Nat} {data : EquationData}
    (hpasses : Passes evm z h data) (hcall : EcmulExact evm (data.call z))
    (hcall1 : EcmulExact evm (data.call1 h)) {P : Group}
    (hP : Represents data.point.1 data.point.2 P) :
    ∃ P1 P2, Compressed data.point1 P1 ∧ Compressed data.point2 P2 ∧ z • P = h • P1 + P2 := by
  rcases hpasses.point1 with ⟨P1, hP1⟩
  rcases hpasses.point2 with ⟨P2, hP2⟩
  have hproduct : Represents data.product.1 data.product.2 (z • P) :=
    hcall.product hpasses.call hP
  have hproduct1 : Represents data.product1.1 data.product1.2 (h • P1) :=
    hcall1.product hpasses.call1 hP1.represents
  rcases addAffineJacobian_isSum hP2.represents hproduct1 with ⟨J, hJ, hdecides⟩
  rcases hpasses.sum with ⟨J', hJ', heq⟩
  have hsame : J = J' := Option.some_injective _ (hJ.symm.trans hJ')
  subst hsame
  refine ⟨P1, P2, ⟨_, hP1⟩, ⟨_, hP2⟩, ?_⟩
  rw [(hdecides _ _ _ hproduct).mp heq, add_comm]

/-- The coordinates that belong to an equation are those of its points and products. -/
structure TrueCoordinates (data : EquationData) (z h : Nat) (P P1 P2 : Group) : Prop where
  point : Represents data.point.1 data.point.2 P
  product : Represents data.product.1 data.product.2 (z • P)
  point1 : Decompresses data.point1 data.point1YCoord P1
  product1 : Represents data.product1.1 data.product1.2 (h • P1)
  point2 : Decompresses data.point2 data.point2YCoord P2

/-- An equation that holds in the group passes every check, if the coordinates are true and the
calls are in their domain. -/
theorem TrueCoordinates.passes {evm : Evm} {z h : Nat} {data : EquationData} {P P1 P2 : Group}
    (htrue : TrueCoordinates data z h P P1 P2) (hcall : EcmulExact evm (data.call z))
    (hcall1 : EcmulExact evm (data.call1 h)) (hdomain : (data.call z).InDomain)
    (hdomain1 : (data.call1 h).InDomain) (hholds : z • P = h • P1 + P2) :
    Passes evm z h data where
  product := ⟨_, htrue.product⟩
  call := hcall.mpr ⟨hdomain, P, _, htrue.point, htrue.product, rfl⟩
  point1 := ⟨P1, htrue.point1⟩
  product1 := ⟨_, htrue.product1⟩
  call1 := hcall1.mpr ⟨hdomain1, P1, _, htrue.point1.represents, htrue.product1, rfl⟩
  point2 := ⟨P2, htrue.point2⟩
  sum := by
    rcases addAffineJacobian_isSum htrue.point2.represents htrue.product1 with ⟨J, hJ, hdecides⟩
    refine ⟨J, hJ, (hdecides _ _ _ htrue.product).mpr ?_⟩
    rw [hholds, add_comm]

/-! ## The three equations -/

/-- The points of a proof. -/
structure ProofPoints where
  e : Group
  v : Group
  e1 : Group
  v1 : Group
  e2 : Group
  v2 : Group
  u1 : Group
  u2 : Group

/-- The inputs after deserialization. -/
structure Inputs where
  capsule : Capsule
  cFrag : CapsuleFrag
  precomputed : PreComputedData

namespace Inputs

variable (inputs : Inputs)

/-- The byte strings are those of the inputs. -/
structure ReadFrom (capsuleBytes cFragBytes precomputedBytes : Bytes) : Prop where
  capsule : toCapsule capsuleBytes = some inputs.capsule
  cFrag : toCapsuleFrag cFragBytes = some inputs.cFrag
  precomputed : toPreComputedData precomputedBytes = some inputs.precomputed

/-- The scalar z of the equations. -/
def z : Nat := inputs.cFrag.proof.bnSig

/-- The challenge as it is computed. -/
def h (evm : Evm) : Nat := computeProofChallengeScalar evm inputs.capsule inputs.cFrag

def dataE : EquationData := equationE inputs.capsule inputs.cFrag inputs.precomputed

def dataV : EquationData := equationV inputs.capsule inputs.cFrag inputs.precomputed

def dataU : EquationData := equationU inputs.cFrag inputs.precomputed

/-- The calls of {lit}`ecmulVerify`. -/
def ecmulCalls (evm : Evm) : List EcmulCall :=
  [inputs.dataE.call inputs.z, inputs.dataE.call1 (inputs.h evm),
    inputs.dataV.call inputs.z, inputs.dataV.call1 (inputs.h evm),
    inputs.dataU.call inputs.z, inputs.dataU.call1 (inputs.h evm)]

/-- The signature of the fragment is that of the given address. -/
def SignatureChecks (evm : Evm) : Prop :=
  recoverSigner evm inputs.cFrag inputs.precomputed = some inputs.precomputed.alicesKeyAsAddress

end Inputs

namespace ProofPoints

variable (points : ProofPoints)

/-- The challenge computed from the points and the metadata. -/
noncomputable def challenge (evm : Evm) (metadata : Bytes) : Nat :=
  extendedKeccakToBN evm
    (compress points.e ++ compress points.e1 ++ compress points.e2 ++ compress points.v ++
      compress points.v1 ++ compress points.v2 ++ compress pointU ++ compress points.u1 ++
      compress points.u2 ++ metadata)

/-- The equations of the proof hold in the group. -/
structure Hold (evm : Evm) (z : Nat) (metadata : Bytes) : Prop where
  e : z • points.e = points.challenge evm metadata • points.e1 + points.e2
  v : z • points.v = points.challenge evm metadata • points.v1 + points.v2
  u : z • pointU = points.challenge evm metadata • points.u1 + points.u2

/-- The compressed points of the inputs are those of the proof. -/
structure AreCompressed (inputs : Inputs) : Prop where
  e : Compressed inputs.capsule.pointE points.e
  v : Compressed inputs.capsule.pointV points.v
  e1 : Compressed inputs.cFrag.pointE1 points.e1
  v1 : Compressed inputs.cFrag.pointV1 points.v1
  e2 : Compressed inputs.cFrag.proof.pointE2 points.e2
  v2 : Compressed inputs.cFrag.proof.pointV2 points.v2
  u1 : Compressed inputs.cFrag.proof.pointKFragCommitment points.u1
  u2 : Compressed inputs.cFrag.proof.pointKFragPok points.u2

/-- The precomputed data are the coordinates of the points and their products. -/
structure ArePrecomputed (evm : Evm) (inputs : Inputs) : Prop where
  e : Decompresses inputs.capsule.pointE inputs.precomputed.pointEyCoord points.e
  v : Decompresses inputs.capsule.pointV inputs.precomputed.pointVyCoord points.v
  dataE : TrueCoordinates inputs.dataE inputs.z (inputs.h evm) points.e points.e1 points.e2
  dataV : TrueCoordinates inputs.dataV inputs.z (inputs.h evm) points.v points.v1 points.v2
  dataU : TrueCoordinates inputs.dataU inputs.z (inputs.h evm) pointU points.u1 points.u2

variable {points}

theorem ArePrecomputed.areCompressed {evm : Evm} {inputs : Inputs}
    (h : points.ArePrecomputed evm inputs) : points.AreCompressed inputs where
  e := ⟨_, h.e⟩
  v := ⟨_, h.v⟩
  e1 := ⟨_, h.dataE.point1⟩
  v1 := ⟨_, h.dataV.point1⟩
  e2 := ⟨_, h.dataE.point2⟩
  v2 := ⟨_, h.dataV.point2⟩
  u1 := ⟨_, h.dataU.point1⟩
  u2 := ⟨_, h.dataU.point2⟩

/-- The challenge depends on the points and the metadata only. -/
theorem AreCompressed.challenge_eq {inputs : Inputs} (h : points.AreCompressed inputs)
    (evm : Evm) : inputs.h evm = points.challenge evm inputs.cFrag.proof.metadata := by
  have hU : pointBytes ⟨umbralParameterUSign, umbralParameterUXCoord⟩ = compress pointU :=
    Compressed.pointBytes_eq ⟨_, decompresses_pointU⟩
  rw [Inputs.h, computeProofChallengeScalar, challenge, h.e.pointBytes_eq, h.e1.pointBytes_eq,
    h.e2.pointBytes_eq, h.v.pointBytes_eq, h.v1.pointBytes_eq, h.v2.pointBytes_eq, hU,
    h.u1.pointBytes_eq, h.u2.pointBytes_eq]

end ProofPoints

/-- Accepted equations hold for the points of the inputs. -/
theorem Inputs.exists_points {inputs : Inputs} {evm : Evm}
    (hecmul : ∀ call ∈ inputs.ecmulCalls evm, EcmulExact evm call)
    (haccepted : checkEquations evm inputs.capsule inputs.cFrag inputs.precomputed = some true) :
    ∃ points : ProofPoints, points.AreCompressed inputs ∧
      points.Hold evm inputs.z inputs.cFrag.proof.metadata := by
  rcases checkEquations_eq_some.mp haccepted with
    ⟨⟨E, hE⟩, hpassesE, ⟨V, hV⟩, hpassesV, hpassesU⟩
  simp only [Inputs.ecmulCalls, List.forall_mem_cons] at hecmul
  rcases hecmul with ⟨hzE, hhE1, hzV, hhV1, hzU, hhU1, -⟩
  rcases Passes.equation hpassesE hzE hhE1 hE.represents with ⟨E1, E2, hE1, hE2, hholdsE⟩
  rcases Passes.equation hpassesV hzV hhV1 hV.represents with ⟨V1, V2, hV1, hV2, hholdsV⟩
  rcases Passes.equation hpassesU hzU hhU1 decompresses_pointU.represents with
    ⟨U1, U2, hU1, hU2, hholdsU⟩
  let points : ProofPoints := ⟨E, V, E1, V1, E2, V2, U1, U2⟩
  have hpoints : points.AreCompressed inputs :=
    ⟨⟨_, hE⟩, ⟨_, hV⟩, hE1, hV1, hE2, hV2, hU1, hU2⟩
  refine ⟨points, hpoints, ?_⟩
  constructor
  · rw [← hpoints.challenge_eq]
    exact hholdsE
  · rw [← hpoints.challenge_eq]
    exact hholdsV
  · rw [← hpoints.challenge_eq]
    exact hholdsU

/-- Equations that hold are accepted when the precomputed data are true. -/
theorem ProofPoints.Hold.checkEquations {inputs : Inputs} {evm : Evm} {points : ProofPoints}
    (hholds : points.Hold evm inputs.z inputs.cFrag.proof.metadata)
    (htrue : points.ArePrecomputed evm inputs)
    (hecmul : ∀ call ∈ inputs.ecmulCalls evm, EcmulExact evm call)
    (hdomain : ∀ call ∈ inputs.ecmulCalls evm, call.InDomain) :
    checkEquations evm inputs.capsule inputs.cFrag inputs.precomputed = some true := by
  simp only [Inputs.ecmulCalls, List.forall_mem_cons] at hecmul hdomain
  rcases hecmul with ⟨hzE, hhE1, hzV, hhV1, hzU, hhU1, -⟩
  rcases hdomain with ⟨hdzE, hdhE1, hdzV, hdhV1, hdzU, hdhU1, -⟩
  have hchallenge := htrue.areCompressed.challenge_eq evm
  have hE := hholds.e
  have hV := hholds.v
  have hU := hholds.u
  rw [← hchallenge] at hE hV hU
  apply checkEquations_eq_some.mpr
  exact ⟨⟨_, htrue.e⟩, htrue.dataE.passes hzE hhE1 hdzE hdhE1 hE, ⟨_, htrue.v⟩,
    htrue.dataV.passes hzV hhV1 hdzV hdhV1 hV, htrue.dataU.passes hzU hhU1 hdzU hdhU1 hU⟩

/-- Verification of a capsule fragment decides the equations of its proof.  Whatever the
precomputed data are, acceptance means that the compressed points of the inputs are points of
the curve for which the equations hold; and when these hold, the signature checks, the
precomputed data are true and the calls are in their domain, the fragment is accepted. -/
theorem validateCFrag_decides (evm : Evm) (capsuleBytes cFragBytes precomputedBytes : Bytes)
    (hecmul : ∀ inputs : Inputs, inputs.ReadFrom capsuleBytes cFragBytes precomputedBytes →
      ∀ call ∈ inputs.ecmulCalls evm, EcmulExact evm call) :
    (validateCFrag evm capsuleBytes cFragBytes precomputedBytes = some true →
      ∃ inputs : Inputs, inputs.ReadFrom capsuleBytes cFragBytes precomputedBytes ∧
        ∃ points : ProofPoints, points.AreCompressed inputs ∧
          points.Hold evm inputs.z inputs.cFrag.proof.metadata) ∧
    ∀ (inputs : Inputs) (points : ProofPoints),
      inputs.ReadFrom capsuleBytes cFragBytes precomputedBytes →
      points.Hold evm inputs.z inputs.cFrag.proof.metadata →
      inputs.SignatureChecks evm →
      points.ArePrecomputed evm inputs →
      (∀ call ∈ inputs.ecmulCalls evm, call.InDomain) →
      validateCFrag evm capsuleBytes cFragBytes precomputedBytes = some true := by
  constructor
  · intro haccepted
    rcases validateCFrag_eq_some.mp haccepted with
      ⟨capsule, cFrag, precomputed, hcapsule, hcFrag, hprecomputed, -, hequations⟩
    have hread : Inputs.ReadFrom ⟨capsule, cFrag, precomputed⟩ capsuleBytes cFragBytes
        precomputedBytes := ⟨hcapsule, hcFrag, hprecomputed⟩
    exact ⟨_, hread, Inputs.exists_points (hecmul _ hread) hequations⟩
  · intro inputs points hread hholds hsignature htrue hdomain
    apply validateCFrag_eq_some.mpr
    exact ⟨inputs.capsule, inputs.cFrag, inputs.precomputed, hread.capsule, hread.cFrag,
      hread.precomputed, hsignature,
      hholds.checkEquations htrue (hecmul inputs hread) hdomain⟩

/-! ## An accepted fragment

The points E and V are U, the points with index 1 are its double, the points with index 2 are
U again. -/

/-- The double of U. -/
def doubleU : Nat × Nat :=
  (0x9c8773779d2114c5ef824029408c4f85b4e92fe3d59791d6f201aa801f928ce9,
    0x838953e7de71c5af529e42b813b88ec76f58d82507e9d37dd4a72e49e13ccc22)

/-- The challenge and the scalar z = 1 + 2 * h, modulo the order. -/
def sampleH : Nat := 0x1956c154c2707c589de482e7a6968fe35b4b783b9c755be46d81cd28fb314d54

def sampleZ : Nat := 0x32ad82a984e0f8b13bc905cf4d2d1fc6b696f07738eab7c8db039a51f6629aa9

/-- The product of U and z. -/
def productU : Nat × Nat :=
  (0x579567a0f63a46c40e78846c5c706dc5bd3d06a47f7f6a0a69677622a7f07d95,
    0xa1128cc894f1023f80384e0f966594b468ee98c761dd6e764b133a7b6c065abe)

/-- The product of the double of U and the challenge. -/
def productDoubleU : Nat × Nat :=
  (0x192f6c1ad8bc595c1ec6c2d2fe8229fe291792bc15e2050a49fa1978106d2e7b,
    0xcbe96c09488dd8e8a751b849727abe6eea944672a6412100fd4601d384ea5a5a)

/-- The hashes of the two products. -/
def hashProductU : Nat := 0xf2be8a723615b8e9f7dade61a3f6d20990430fb1bb13248ab7a23ae19c995462

def hashProductDoubleU : Nat := 0x0c867b5d390abf5f6b10f7a5e33eb9083816aff3203d3bdf1d31858526249b94

/-- The address of the signer. -/
def sampleAddress : Nat := 0x7e5f4552091a69125d5dfcb7b8c2659029395bdf

/-- The machine on the inputs of the run below. -/
def sampleEvm : Evm where
  keccak256 data :=
    if data = wordBytes productU.1 ++ wordBytes productU.2 then hashProductU
    else if data = wordBytes productDoubleU.1 ++ wordBytes productDoubleU.2 then hashProductDoubleU
    else if data.head? = some 0 then
      0x5e3293f60c65d40293ab79af57009d25df499501f06cc8e5dd2451d5916bdfa6
    else 0x98984fb57e66ee5767f004452fa53bcd76f53f31dcb63cd80a18a57bea5799d3
  ecrecover hash _ r _ :=
    if hash = 1 then sampleAddress
    else if r = umbralParameterUXCoord then hashProductU % 2 ^ 160
    else hashProductDoubleU % 2 ^ 160

/-- The compressed forms of U and of its double. -/
def packedU : Bytes := pointBytes ⟨2, umbralParameterUXCoord⟩

def packedDoubleU : Bytes := pointBytes ⟨2, doubleU.1⟩

def sampleCapsule : Bytes := packedU ++ packedU ++ wordBytes 1

def sampleCFrag : Bytes :=
  packedDoubleU ++ packedDoubleU ++ wordBytes 0 ++ packedU ++
    (packedU ++ packedU ++ packedDoubleU ++ packedU ++ wordBytes sampleZ) ++
    (wordBytes 0xc6047f9441ed7d6d3045406e95c07cd85c778e4b8cef3ca7abac09b95c709ee5 ++
      wordBytes 0x63023fca20f6beb69822a0374ae03e6c2e3bc725c6779e53d5d604dcae384f73) ++ [1, 2, 3]

/-- The coordinates that one equation needs. -/
def samplePrecomputedWords : List Nat :=
  [productU.1, productU.2, doubleU.2, productDoubleU.1, productDoubleU.2, umbralParameterUYCoord]

def samplePrecomputed : Bytes :=
  (umbralParameterUYCoord :: samplePrecomputedWords ++
      umbralParameterUYCoord :: samplePrecomputedWords ++ samplePrecomputedWords).flatMap
    wordBytes ++ wordBytes 1 ++ (wordBytes sampleAddress).drop 12 ++ [27, 27, 27, 27, 2]

/-- The two calls of the run. -/
def callU : EcmulCall :=
  ⟨umbralParameterUXCoord, umbralParameterUYCoord, sampleZ, productU.1, productU.2⟩

def callDoubleU : EcmulCall :=
  ⟨doubleU.1, doubleU.2, sampleH, productDoubleU.1, productDoubleU.2⟩

/-- A call with a verified product is exact. -/
theorem exact_of_multiple {evm : Evm} {call : EcmulCall}
    (hpoint : isOnCurve call.x1 call.y1 = true) (hproduct : isOnCurve call.qx call.qy = true)
    (hrange : 1 ≤ call.x1 ∧ call.x1 ≤ curveOrder - 1 ∧ ¬ curveOrder ∣ call.scalar)
    (hmultiple : (multiple (call.x1, call.y1) 256 call.scalar).map
      (eqAffineJacobian (call.qx, call.qy)) = some true)
    (hverify : ecmulVerify evm call = true) : EcmulExact evm call := by
  rcases isOnCurve_iff.mp hpoint with ⟨P, hP⟩
  have hQ := represents_multiple hP hproduct hmultiple
  constructor
  · intro _
    exact ⟨⟨⟨P, hP⟩, hrange.1, hrange.2.1, hrange.2.2⟩, P, _, hP, hQ, rfl⟩
  · intro _
    exact hverify

theorem exact_callU : EcmulExact sampleEvm callU := by
  apply exact_of_multiple <;> decide +kernel

theorem exact_callDoubleU : EcmulExact sampleEvm callDoubleU := by
  apply exact_of_multiple <;> decide +kernel

theorem ecmulCalls_sample {inputs : Inputs}
    (hread : inputs.ReadFrom sampleCapsule sampleCFrag samplePrecomputed) :
    inputs.ecmulCalls sampleEvm =
      [callU, callDoubleU, callU, callDoubleU, callU, callDoubleU] := by
  have hcalls : ((toCapsule sampleCapsule).bind fun capsule =>
      (toCapsuleFrag sampleCFrag).bind fun cFrag =>
        (toPreComputedData samplePrecomputed).map fun precomputed =>
          Inputs.ecmulCalls ⟨capsule, cFrag, precomputed⟩ sampleEvm) =
      some [callU, callDoubleU, callU, callDoubleU, callU, callDoubleU] := by
    decide +kernel
  rw [hread.capsule, hread.cFrag, hread.precomputed] at hcalls
  exact Option.some_injective _ hcalls

theorem validateCFrag_decides_sample :
    validateCFrag sampleEvm sampleCapsule sampleCFrag samplePrecomputed = some true ∧
      ∃ inputs : Inputs, inputs.ReadFrom sampleCapsule sampleCFrag samplePrecomputed ∧
        ∃ points : ProofPoints, points.AreCompressed inputs ∧
          points.Hold sampleEvm inputs.z inputs.cFrag.proof.metadata := by
  have haccepted : validateCFrag sampleEvm sampleCapsule sampleCFrag samplePrecomputed =
      some true := by
    decide +kernel
  refine ⟨haccepted, (validateCFrag_decides sampleEvm sampleCapsule sampleCFrag samplePrecomputed
    ?_).1 haccepted⟩
  intro inputs hread call hcall
  rw [ecmulCalls_sample hread] at hcall
  simp only [List.mem_cons, List.not_mem_nil, or_false] at hcall
  rcases hcall with rfl | rfl | rfl | rfl | rfl | rfl
  · exact exact_callU
  · exact exact_callDoubleU
  · exact exact_callU
  · exact exact_callDoubleU
  · exact exact_callU
  · exact exact_callDoubleU

end ReEncryption

end NuLink
