import Space.Cloud.Router

/-! # What the client makes of a response

    `CloudClient::send`, from the response on. A success is read as the type
    that the call asks for; anything else is read as an `ErrorResponse`, and
    its error is returned. -/

namespace Space

open Rust Outcome Data

/-- The texts of `reqwest`. -/
class Reqwest where
  /-- The error for a connection that is closed without a response. -/
  closed : String
  /-- `Display` of a `StatusCode`. -/
  displayStatus : Nat → String

/-- `serde_json::from_slice::<ErrorResponse>`. -/
def ErrorResponse.ofBody [UuidCrate] [SerdeJson] (body : List UInt8) : Option ErrorResponse :=
  (SerdeJson.fromSlice body).bind ErrorResponse.ofJson

/-- `reqwest`, without the reason phrase of a status. -/
@[reducible] def Sample.reqwest : Reqwest where
  closed := "connection closed before message completed"
  displayStatus := fun status => String.ofList (Nat.toDigits 10 status)

namespace CloudClient

section send

variable [UuidCrate] [SerdeJson] [Reqwest] {T : Type}

def badBody (body : List UInt8) : SpaceError :=
  SpaceError.new .protocolViolation ("bad response body: " ++ SerdeJson.error body)

def unparseable (status : Nat) : SpaceError :=
  SpaceError.new .protocolViolation
    ("non-2xx (" ++ Reqwest.displayStatus status ++ ") with unparseable body")

/-- `send`, given the response, if there is one. -/
def send (ofJson : Json → Option T) : Option HttpResponse → Res T
  | none => err (netError false Reqwest.closed)
  | some resp =>
    if isSuccess resp.status then
      okOr ((SerdeJson.fromSlice resp.body).bind ofJson) (badBody resp.body)
    else
      match ErrorResponse.ofBody resp.body with
      | some er => err er.error
      | none => err (unparseable resp.status)

/-- A success that can be read is returned. -/
theorem send_ok {ofJson : Json → Option T} {resp : HttpResponse} {j : Json} {a : T}
    (hstatus : isSuccess resp.status = true) (hbody : SerdeJson.fromSlice resp.body = some j)
    (hj : ofJson j = some a) : send ofJson (some resp) = ok a := by
  rw [send, if_pos hstatus, hbody, Option.bind_some, hj, okOr_some]

/-- An error that can be read is returned, whatever was asked for. -/
theorem send_err {ofJson : Json → Option T} {resp : HttpResponse} {er : ErrorResponse}
    (hstatus : isSuccess resp.status = false) (hbody : ErrorResponse.ofBody resp.body = some er) :
    send ofJson (some resp) = err er.error := by
  have hno : ¬ isSuccess resp.status = true := by simp [hstatus]
  rw [send, if_neg hno, hbody]

/-- Nothing else is returned when the server refuses. -/
theorem send_of_failure {ofJson : Json → Option T} {resp : HttpResponse}
    (hstatus : isSuccess resp.status = false) : ∃ e, send ofJson (some resp) = err e := by
  cases hbody : ErrorResponse.ofBody resp.body with
  | some er => exact ⟨_, send_err hstatus hbody⟩
  | none =>
    have hno : ¬ isSuccess resp.status = true := by simp [hstatus]
    exact ⟨_, by rw [send, if_neg hno, hbody]⟩

end send

end CloudClient

/-! ### What the server sends -/

section server

variable [UuidCrate] [SerdeJson]

/-- **The error of the server reaches the client.** -/
theorem ofBody_errorResponse (huuid : UuidCrate.Lawful) (hserde : SerdeJson.Lawful)
    {e : SpaceError} (he : e.Bare) :
    ErrorResponse.ofBody (errorResponse e).body = some (.from e) := by
  obtain ⟨code, message, rfl⟩ := he
  have hdepth : (SpaceError.new code message).toJson.within 126 = true :=
    SpaceError.within_toJson_new 125 code message
  have hwithin : (ErrorResponse.from (SpaceError.new code message)).toJson.within
      recursionLimit = true := by
    rw [ErrorResponse.toJson, recursionLimit, within_responseToJson]
    exact hdepth
  have herror : (SpaceError.new code message).toJson.within recursionLimit = true :=
    SpaceError.within_toJson_new 126 code message
  show (SerdeJson.fromSlice (SerdeJson.toVec
    (ErrorResponse.from (SpaceError.new code message)).toJson)).bind ErrorResponse.ofJson = _
  rw [hserde.fromSlice_toVec _ hwithin]
  exact ErrorResponse.ofJson_toJson huuid herror

end server

end Space
