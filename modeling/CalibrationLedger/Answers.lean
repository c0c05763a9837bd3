import CalibrationLedger.Verify

set_option autoImplicit false

-- What the verify endpoint and the offline command make of the verifier's result or error.
namespace CalibrationLedger

open JsonText Digest

-- The caller's X-Request-ID, whose bytes are read as Latin-1, or a new id.
def requestId (header : Bytes) (drawn : Uuid) : Text :=
  if header = [] then text drawn.toText else header.map fun byte => .scalar (Char.ofNat byte.toNat)

def errorContent (id : Text) (error : LedgerError) : Json := .obj (dict [("error", .obj (dict [
  ("code", string error.code), ("message", .str error.message), ("details", .obj (dict error.details)),
  ("request_id", .str id)]))])

def verificationContent (result : Verification) : Json := .obj (dict ([
  ("valid", .bool result.valid), ("witnessed", .bool result.witnessed)] ++
    (result.checkpointId.map fun id => ("checkpoint_id", .str id)).toList))

-- The error object the command prints.
def refusalContent (code : String) (message : Text) (details : List (String × Json)) : Json := .obj (dict [
  ("valid", .bool false),
  ("error", .obj (dict
    [("code", string code), ("message", .str message), ("details", .obj (dict details))]))])

structure JsonResponse where
  statusCode : Nat
  body : Bytes
deriving DecidableEq

-- What is handed to json.dumps and printed, and the exit status.
structure Printed where
  content : Json
  status : Nat
deriving DecidableEq

-- A file that cannot be read, or what Python code raises.
inductive CliFault where
  | os
  | raised (error : PyError)
deriving DecidableEq

section

variable (rt : Runtime)

-- JSONResponse.render: allow_nan=False, the members as they stand, in UTF-8.
def renderContent (content : Json) : Py Bytes :=
  if rt.dumpsExhausts false false content then .error .recursionError
  else if nonFinite content then .error .valueError
  else encodeUtf8 (render (jsonFloat rt.floatRepr) content)

def errorResponse (id : Text) (error : LedgerError) : Py JsonResponse := do
  return ⟨error.statusCode, ← renderContent rt (errorContent id error)⟩

-- POST /v1/verify, with the handler of LedgerError. Any other error ends in a plain 500.
def verifyRoute (id : Text) (receipt : Dict) (keyring : Keyring) : Py JsonResponse :=
  match verifyReceipt rt receipt keyring with
  | .ok result => do return ⟨200, ← renderContent rt (verificationContent result)⟩
  | .error (.keyConfiguration message) =>
      errorResponse rt id ⟨"UNKNOWN_KEY_VERSION", message, 422, [("retryable", .bool false)]⟩
  | .error (.ledger error) => errorResponse rt id error
  | .error error => .error error

-- print(json.dumps(content, sort_keys=True)): NaN passes and every text is escaped to ASCII.
def printJson (status : Nat) (content : Json) : Py Printed :=
  if rt.dumpsExhausts true true content then .error .recursionError else .ok ⟨content, status⟩

-- What main prints, describe being str(exc), or the error it ends with.
def printOutcome (describe : CliFault → Text) : Except CliFault Verification → Py Printed
  | .ok result => printJson rt 0 (verificationContent result)
  | .error .os => printJson rt 2 (refusalContent "INPUT_ERROR" (describe .os) [])
  | .error (.raised (.keyConfiguration message)) =>
      printJson rt 2 (refusalContent "UNKNOWN_KEY_VERSION" message [])
  | .error (.raised .valueError) =>
      printJson rt 2 (refusalContent "INPUT_ERROR" (describe (.raised .valueError)) [])
  | .error (.raised (.ledger error)) =>
      if error.code = "INVALID_PROOF" then printJson rt 2
        (refusalContent error.code error.message error.details)
      else .error (.ledger error)
  | .error (.raised error) => .error error

-- main once the files are read.
def verifyMain (describe : CliFault → Text) (receipt : Dict) (keyring : Keyring) : Py Printed :=
  printOutcome rt describe ((verifyReceipt rt receipt keyring).mapError .raised)

theorem render_content_ok (content : Json) : (∃ data, renderContent rt content = .ok data) ↔
    rt.dumpsExhausts false false content = false ∧ encodable content := by
  rw [renderContent]
  cases rt.dumpsExhausts false false content with
  | true => simp
  | false =>
      simp only [Bool.false_eq_true, if_false, true_and]
      cases finite : nonFinite content with
      | true =>
          simp only [if_true]
          constructor
          · rintro ⟨_, raised⟩
            cases raised
          · intro accepted
            rw [encodable_finite content accepted] at finite
            cases finite
      | false =>
          simp only [Bool.false_eq_true, if_false, encode_utf8_scalars]
          exact ⟨rendered_encodable rt content finite, render_scalars rt content⟩

theorem print_json_ok (status : Nat) (content : Json) :
    (∃ printed, printJson rt status content = .ok printed) ↔ rt.dumpsExhausts true true content = false := by
  rw [printJson]
  cases rt.dumpsExhausts true true content <;> simp

end

theorem request_id_scalars (header : Bytes) (drawn : Uuid) : Scalars (requestId header drawn) := by
  rw [requestId]
  split
  · exact text_scalars _
  · exact ⟨header.map fun byte => Char.ofNat byte.toNat, by rw [List.map_map]; rfl⟩

theorem dict_encodable_iff (members : List (String × Json)) :
    encodable (.obj (dict members)) ↔ ∀ entry ∈ members, encodable entry.2 := by
  refine ⟨fun accepted entry inside => ?_, dict_encodable members⟩
  exact ((members_encodable_iff _).mp accepted _ (List.mem_map_of_mem inside)).2

theorem dict_depth_le (members : List (String × Json)) (bound : Nat) :
    membersDepth (dict members) ≤ bound ↔ ∀ entry ∈ members, entry.2.depth ≤ bound := by
  rw [members_depth_le]
  constructor
  · exact fun deep entry inside => deep _ (List.mem_map_of_mem inside)
  · intro deep entry inside
    obtain ⟨source, listed, rfl⟩ := List.mem_map.mp inside
    exact deep source listed

theorem error_content_encodable (id : Text) (scalars : Scalars id) (error : LedgerError) :
    encodable (errorContent id error) ↔ Scalars error.message ∧
    ∀ entry ∈ error.details, encodable entry.2 := by
  have code : encodable (string error.code) := text_scalars error.code
  have own : encodable (.str id) := scalars
  simp only [errorContent, dict_encodable_iff, List.forall_mem_cons, List.not_mem_nil, false_implies,
    implies_true, and_true,
    code, own, true_and]
  rfl

theorem error_content_depth (id : Text) (error : LedgerError) :
    (errorContent id error).depth = membersDepth (dict error.details) + 3 := by
  simp [errorContent, dict, Value.depth, membersDepth, string]

theorem refusal_content_depth (code : String) (message : Text) (details : List (String × Json)) :
    (refusalContent code message details).depth = membersDepth (dict details) + 3 := by
  simp [refusalContent, dict, Value.depth, membersDepth, string]

theorem verification_content_depth (result : Verification) : (verificationContent result).depth = 1 := by
  obtain ⟨valid, witnessed, id⟩ := result
  cases id <;> simp [verificationContent, dict, Value.depth, membersDepth]

theorem main_prints (rt : Runtime) (describe : CliFault → Text) (receipt : Dict) (keyring : Keyring)
    (result : Verification) (verified : verifyReceipt rt receipt keyring = .ok result) :
    verifyMain rt describe receipt keyring = .ok ⟨verificationContent result, 0⟩ := by
  have roomy := rt.roomy
  have fits : rt.dumpsExhausts true true (verificationContent result) = false :=
    rt.dumpsFits _ _ _ (by rw [verification_content_depth]; omega)
  rw [verifyMain, verified]
  simp [Except.mapError, printOutcome, printJson, fits]

end CalibrationLedger
