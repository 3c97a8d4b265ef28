import CodingAgent.Core.Base64
import CodingAgent.Core.Digits
import CodingAgent.Core.Json

/-!
# Requests, responses and errors (`coding-agent-api/src/error.rs`)

The part of a request and of a response that the routers read and write. A
header map keeps its values in order under lower-case names; `insert` replaces
every value of a name.

* `getAll_insert`, `getAll_insert_ne`, `getAll_remove`, `getAll_remove_ne`:
  what a change of one name does to the values of every name.
-/
namespace CodingAgent.L3.Api.Http
open Base64 (isVisible)

abbrev HeaderValue := List UInt8

abbrev HeaderMap := List (String × HeaderValue)

namespace HeaderValue

/-- `HeaderValue::from_str` of a text of ASCII characters. -/
def ofText (text : String) : HeaderValue := text.toList.map fun c => UInt8.ofNat c.toNat

/-- `HeaderValue::to_str` -/
def toStr (value : HeaderValue) : Option String :=
  if value.all fun b => isVisible (Char.ofNat b.toNat) then
    some (String.ofList (value.map fun b => Char.ofNat b.toNat))
  else none

end HeaderValue

namespace HeaderMap

def getAll (headers : HeaderMap) (name : String) : List HeaderValue :=
  (headers.filter fun header => header.1 = name).map (·.2)

def get (headers : HeaderMap) (name : String) : Option HeaderValue := (headers.getAll name).head?

def containsKey (headers : HeaderMap) (name : String) : Bool := (headers.getAll name) ≠ []

def remove (headers : HeaderMap) (name : String) : HeaderMap :=
  headers.filter fun header => header.1 ≠ name

def insert (headers : HeaderMap) (name : String) (value : HeaderValue) : HeaderMap :=
  headers.remove name ++ [(name, value)]

variable {headers : HeaderMap} {name other : String} {value : HeaderValue}

@[simp] theorem getAll_remove : (headers.remove name).getAll name = [] := by
  simp [getAll, remove]

theorem getAll_remove_ne (h : other ≠ name) :
    (headers.remove name).getAll other = headers.getAll other := by
  unfold getAll remove
  rw [List.filter_filter]
  congr 1
  refine List.filter_congr fun header _ => ?_
  by_cases hname : header.1 = other
  · simp [hname, h]
  · simp [hname]

@[simp] theorem getAll_insert : (headers.insert name value).getAll name = [value] := by
  have hremove : (headers.remove name).getAll name = [] := getAll_remove
  unfold getAll at hremove
  simp [getAll, insert, hremove]

theorem getAll_insert_ne (h : other ≠ name) :
    (headers.insert name value).getAll other = headers.getAll other := by
  have hremove : (headers.remove name).getAll other = headers.getAll other := getAll_remove_ne h
  unfold getAll at hremove ⊢
  simp [insert, List.filter_append, h.symm, hremove]

@[simp] theorem containsKey_eq_true : headers.containsKey name = true ↔ headers.getAll name ≠ [] := by
  simp [containsKey]

@[simp] theorem containsKey_eq_false : headers.containsKey name = false ↔ headers.getAll name = [] := by
  simp [containsKey]

end HeaderMap

/-! ## Requests -/

inductive Method where
  | get
  | head
  | post
  | other (name : String)
  deriving DecidableEq, Repr

/-- The head of a request. The path is the one of the request line, with its
escapes. -/
structure Parts where
  method : Method
  path : String
  query : Option String
  headers : HeaderMap
  deriving DecidableEq, Repr

/-! ## Errors -/

/-- mirrors crates/coding-agent-api/src/error.rs:10-16 -/
structure ApiError where
  status : Nat
  code : String
  message : String
  retryable : Bool
  details : List (String × Json)

/-- mirrors crates/coding-agent-api/src/error.rs:19-25 -/
def apiErrorResponse (error : ApiError) (requestId : String) : Json :=
  .object [("code", .string error.code), ("message", .string error.message),
    ("retryable", .bool error.retryable), ("request_id", .string requestId),
    ("details", .object error.details)]

/-! ## Responses -/

inductive Body where
  | empty
  | json (value : Json)
  | bytes (value : List UInt8)
  /-- the stream of `sse::connect` -/
  | events (after : Int)
  /-- the document of `QuitResponse`, and the trigger when it has been read -/
  | quit (value : Json)

structure Response where
  status : Nat
  headers : HeaderMap
  body : Body

/-- `(status, Json(value)).into_response()` -/
def Response.json (status : Nat) (value : Json) : Response where
  status := status
  headers := [("content-type", .ofText "application/json")]
  body := .json value

/-- `status.into_response()` -/
def Response.empty (status : Nat) : Response where
  status := status
  headers := []
  body := .empty

/-- `Sse::new(..).into_response()` -/
def Response.events (after : Int) : Response where
  status := 200
  headers := [("content-type", .ofText "text/event-stream"), ("cache-control", .ofText "no-cache")]
  body := .events after

def Response.setHeader (response : Response) (name : String) (value : HeaderValue) : Response :=
  { response with headers := response.headers.insert name value }

/-- The response of an error, in the envelope that names the request. -/
def Response.error (error : ApiError) (requestId : String) : Response :=
  .json error.status (apiErrorResponse error requestId)

@[simp] theorem Response.setHeader_headers (response : Response) (name : String)
    (value : HeaderValue) :
    (response.setHeader name value).headers = response.headers.insert name value := rfl

@[simp] theorem Response.setHeader_status (response : Response) (name : String)
    (value : HeaderValue) : (response.setHeader name value).status = response.status := rfl

@[simp] theorem Response.setHeader_body (response : Response) (name : String)
    (value : HeaderValue) : (response.setHeader name value).body = response.body := rfl

end CodingAgent.L3.Api.Http
