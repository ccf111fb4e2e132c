import FileServer.Bytes
import FileServer.Message.Request
import FileServer.Surroundings

/-! Responses, and the services that answer requests with them. Every response that is built carries
a `Server` header first and says how long its body is, unless its headers already do. An answer comes
with what the service asked for on the way, and it can fail in one way: a date that has no written
form. -/
namespace FileServer

inductive DateFault
  | beforeEpoch (seconds : Nat)
  | pastLastYear
  deriving DecidableEq, Repr

def DateFault.message : DateFault → String
  | .beforeEpoch seconds => s!"all times should be after the epoch: SystemTimeError({seconds}s)"
  | .pastLastYear => "date must be before year 9999"

structure CivilDate where
  year : Nat
  month : Nat
  day : Nat
  deriving DecidableEq, Repr

namespace CivilDate

def ofDays (days : Nat) : CivilDate :=
  let z := days + 719468
  let era := z / 146097
  let dayOfEra := z % 146097
  let yearOfEra :=
    (dayOfEra - dayOfEra / 1460 + dayOfEra / 36524 - dayOfEra / 146096) / 365
  let dayOfYear := dayOfEra - (365 * yearOfEra + yearOfEra / 4 - yearOfEra / 100)
  let shifted := (5 * dayOfYear + 2) / 153
  let day := dayOfYear - (153 * shifted + 2) / 5 + 1
  let month := if shifted < 10 then shifted + 3 else shifted - 9
  let year := yearOfEra + era * 400 + (if month ≤ 2 then 1 else 0)
  ⟨year, month, day⟩

end CivilDate

namespace Date

def weekdays : List String := ["Thu", "Fri", "Sat", "Sun", "Mon", "Tue", "Wed"]

def months : List String :=
  ["Jan", "Feb", "Mar", "Apr", "May", "Jun", "Jul", "Aug", "Sep", "Oct", "Nov", "Dec"]

def padded (width n : Nat) : String :=
  let digits := toString n
  String.ofList (List.replicate (width - digits.length) '0') ++ digits

def limit : Int := 253402300800

def dayTime (seconds : Nat) : String :=
  let hour := padded 2 (seconds / 3600)
  let minute := padded 2 (seconds / 60 % 60)
  let second := padded 2 (seconds % 60)
  s!"{hour}:{minute}:{second}"

def ofSeconds (seconds : Nat) : String :=
  let days := seconds / 86400
  let date := CivilDate.ofDays days
  let weekday := weekdays.getD (days % 7) ""
  let month := months.getD (date.month - 1) ""
  let day := padded 2 date.day
  let year := padded 4 date.year
  let time := dayTime (seconds % 86400)
  s!"{weekday}, {day} {month} {year} {time} GMT"

def write (moment : Int) : Except DateFault String :=
  if moment < 0 then .error (.beforeEpoch (-moment).toNat)
  else if limit ≤ moment then .error .pastLastYear
  else .ok (ofSeconds moment.toNat)

end Date

inductive Status
  | ok
  | badRequest
  | forbidden
  | notFound
  | internalError
  deriving DecidableEq, Repr

namespace Status

def code : Status → Nat
  | .ok => 200
  | .badRequest => 400
  | .forbidden => 403
  | .notFound => 404
  | .internalError => 500

def reason : Status → String
  | .ok => "OK"
  | .badRequest => "Bad Request"
  | .forbidden => "Forbidden"
  | .notFound => "Not Found"
  | .internalError => "Internal Server Error"

end Status

structure Response where
  version : String
  status : Status
  headers : List Header
  body : Bytes
  deriving DecidableEq, Repr

namespace Response

def serverName : String := "sluice/0.1.0"

def withServer (headers : List Header) : List Header :=
  match Header.find? headers "Server" with
  | some _ => headers
  | none => ⟨"Server", serverName⟩ :: headers

def withLength (length : Nat) (headers : List Header) : List Header :=
  match Header.find? headers "Content-Length" with
  | some _ => headers
  | none => headers.take 1 ++ ⟨"Content-Length", toString length⟩ :: headers.drop 1

def build (status : Status) (headers : List Header) (body : Bytes) : Response :=
  ⟨"HTTP/1.1", status, withLength body.length (withServer headers), body⟩

def document (body : Bytes) (contentType : String) (modified : Int) : Except DateFault Response :=
  (Date.write modified).map fun date =>
    build .ok [⟨"Content-Type", contentType⟩, ⟨"Last-Modified", date⟩] body

def bare (status : Status) : Response := build status [] []

def header? (r : Response) (name : String) : Option String := Header.find? r.headers name

end Response

def Response.wire (r : Response) : Bytes :=
  .ofText (r.version ++ " " ++ toString r.status.code ++ " " ++ r.status.reason) ++ Bytes.crlf
    ++ r.headers.flatMap Header.wire ++ Bytes.crlf ++ r.body

inductive Effect
  | lookup (path : String)
  | resolve (host : String)
  deriving DecidableEq, Repr

abbrev Answer := Traced Effect (Except DateFault Response)

abbrev Service := Request → Answer

namespace Service

def fixed (response : Response) : Service := fun _ => ⟨[], .ok response⟩

def echo : Service := fun r =>
  let line := r.method.text ++ " " ++ r.uri ++ " " ++ r.remote.text ++ " " ++ r.version ++ "\n"
  ⟨[], .ok (.build .ok [] (.ofText line ++ r.body))⟩

end Service

end FileServer
