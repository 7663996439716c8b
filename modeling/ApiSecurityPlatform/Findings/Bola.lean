/-
# Findings.Bola -- what the cross-owner analyzer reads and the evidence it gives

The rows `analyze_bola_run` is called with, and the pieces of evidence a potential BOLA
carries: the pair of runs with what was seen in each, the fingerprints of both bodies and
their similarity (the redacted excerpts are with the analyzer, in `Findings.Classification`).
-/
import ApiSecurityPlatform.Python.Text

namespace ApiSecurityPlatform.Findings

open ApiSecurityPlatform.Python

set_option autoImplicit false

/-! ## Rows -/

structure TestCase where
  id : Int
  endpointId : Int
  actorIdentityId : Int
  resourceId : Int
  testType : Str
deriving DecidableEq

structure TestRun where
  id : Int
  testCaseId : Int
  responseStatus : Option Int
  responseBody : Option Str
  errorMessage : Option Str
deriving DecidableEq

structure Resource where
  targetId : Int
  resourceType : Str
  externalId : Str
deriving DecidableEq

def ownerBaseline : Str := "owner_baseline".toList

def bolaCrossOwner : Str := "bola_cross_owner".toList

/-! ## Evidence -/

inductive AnalysisOutcome where
  | pass
  | potentialBola
  | inconclusive
deriving DecidableEq, Repr

structure BolaStructuredEvidence where
  probeTestRunId : Int
  baselineTestRunId : Int
  baselineStatusCode : Int
  probeStatusCode : Int
  baselineResourceIdentifierPresent : Bool
  probeResourceIdentifierPresent : Bool
  evidenceType : Str := "bola_resource_identifier_pair".toList
  ruleId : Str := "bola_resource_identifier_presence".toList
  ruleVersion : Str := ['1']
  reasonCode : Str := "baseline_and_probe_contain_target_resource_identifier".toList
deriving DecidableEq

structure BolaResponseFingerprintEvidence where
  baselineDigest : Str
  probeDigest : Str
  baselineBodyBytes : Nat
  probeBodyBytes : Nat
  algorithm : Str := "sha256".toList
  fingerprintVersion : Str := ['1']
deriving DecidableEq

structure BolaResponseSimilarityEvidence where
  exactDigestMatch : Bool
  lengthSimilarityBps : Nat
  comparatorId : Str := "sha256_exact_and_length_ratio".toList
  comparatorVersion : Str := ['1']
deriving DecidableEq

def compareResponseFingerprints (fingerprint : BolaResponseFingerprintEvidence) :
    BolaResponseSimilarityEvidence :=
  let shorter := min fingerprint.baselineBodyBytes fingerprint.probeBodyBytes
  let longer := max fingerprint.baselineBodyBytes fingerprint.probeBodyBytes
  { exactDigestMatch := fingerprint.baselineDigest == fingerprint.probeDigest
    lengthSimilarityBps := if longer ≠ 0 then shorter * 10000 / longer else 10000 }

def encodeUtf8 (s : Str) : List UInt8 := s.flatMap String.utf8EncodeChar

def maxExcerptLength : Nat := 192

def isSuccessStatus (statusCode : Int) : Bool := 200 ≤ statusCode && statusCode < 300

/-- A message that is set and not empty. -/
def truthy (message : Option Str) : Bool := message.any (!·.isEmpty)

end ApiSecurityPlatform.Findings
