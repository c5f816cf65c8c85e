import Layer4Lb.Lib.Utf8
import Layer4Lb.Balancer.Basic

/-!
# Health checks

`core/health.rs`: the loop `start_health_check` spawns for a backend, and its
two probes.  What a probe meets on the network (whether the timeout fires first,
whether the connect succeeds, whether the request is written, what the one read
returns) is an input of the probe, as the world a poll meets is in
`Traffic.Bandwidth`.  Each round of the loop reports the probe's answer to the
load balancer with `set_backend_health`, an action of the machine of
`Balancer.Basic`.  The sleeps of the loop and the request text of `check_http`
are left out: the backend's answer is the input.

`check_http` reads once, into a buffer of 1024 octets, and passes when the text
`String::from_utf8_lossy` makes of what it read contains `200 OK`.  Lossy
decoding is transparent to ASCII, so this is a fact about the octets read: they
contain the octets of `200 OK` (`checkHttp_eq_true_iff`).  That is not the
status code of the response.
-/

namespace Layer4Lb

/-- What the one `read` of `check_http` returns: `Ok(n)` with the `n` octets it
put in `buf`, or `Err`. -/
inductive ReadResult
  | ok (bytes : List UInt8)
  | err
  deriving DecidableEq, Repr

/-- What a probe meets: whether `tokio::time::timeout` fires before the probe
completes, whether `TcpStream::connect` succeeds, whether `write_all` of the
request succeeds, and what the read returns. -/
structure CheckEnv where
  timedOut : Bool
  connected : Bool
  written : Bool
  read : ReadResult
  deriving DecidableEq, Repr

/-- The match on what `stream.read` returned in `check_http`: `Ok(n)` with
`n > 0` passes when the text contains `200 OK`; `Ok(0)` and `Err` fail. -/
def readPasses : ReadResult → Bool
  | .ok bytes =>
    if 0 < bytes.length then decide ("200 OK".toList <:+: Utf8.fromUtf8Lossy bytes) else false
  | .err => false

/-- `check_http`. -/
def checkHttp (e : CheckEnv) : Bool :=
  if e.timedOut then false
  else if !e.connected then false
  else if !e.written then false
  else readPasses e.read

/-- `check_tcp`: the connect, within the timeout. -/
def checkTcp (e : CheckEnv) : Bool :=
  if e.timedOut then false else e.connected

/-- `check_res` of a round of `start_health_check`'s loop: `check_http` for the
protocol `"http"`, `check_tcp` for any other. -/
def checkRes (protocol : String) (e : CheckEnv) : Bool :=
  if protocol = "http" then checkHttp e else checkTcp e

/-- A round of `start_health_check`'s loop for `backend_addr`: the report
`lb.set_backend_health(&backend_addr, check_res)`. -/
def healthRound (backendAddr protocol : String) (e : CheckEnv) : Action :=
  .setBackendHealth backendAddr (checkRes protocol e)

/-- The octets of `200 OK` are ASCII. -/
theorem ascii_200_OK : ∀ c ∈ "200 OK".toList, c.toNat < 0x80 := by simp

/-- A read passes exactly when it returned some octets that contain the octets
of `200 OK`. -/
theorem readPasses_eq_true_iff (r : ReadResult) :
    readPasses r = true ↔
      ∃ bytes, r = .ok bytes ∧ bytes ≠ [] ∧ Utf8.encodeAscii "200 OK".toList <:+: bytes := by
  cases r with
  | err => simp [readPasses]
  | ok bytes =>
    have hex : (∃ b, ReadResult.ok bytes = .ok b ∧ b ≠ [] ∧ Utf8.encodeAscii "200 OK".toList <:+: b) ↔
        bytes ≠ [] ∧ Utf8.encodeAscii "200 OK".toList <:+: bytes :=
      ⟨fun ⟨b, hb, h⟩ => by cases hb; exact h, fun h => ⟨bytes, rfl, h⟩⟩
    -- the text `from_utf8_lossy` makes contains `200 OK` exactly when the octets do
    rw [hex, ← Utf8.infix_fromUtf8Lossy_iff ascii_200_OK, ← List.length_pos_iff, readPasses]
    split
    · rename_i h
      simp only [decide_eq_true_iff, h, true_and]
    · rename_i h
      simp only [Bool.false_eq_true, h, false_and]

/-- `check_http` passes exactly when the probe completes in time, connects,
writes its request, and reads some octets that contain the octets of `200 OK`,
anywhere: in the status line, in a header, or in the body. -/
theorem checkHttp_eq_true_iff (e : CheckEnv) :
    checkHttp e = true ↔ e.timedOut = false ∧ e.connected = true ∧ e.written = true ∧
      ∃ bytes, e.read = .ok bytes ∧ bytes ≠ [] ∧
        Utf8.encodeAscii "200 OK".toList <:+: bytes := by
  rw [← readPasses_eq_true_iff]
  obtain ⟨timedOut, connected, written, read⟩ := e
  cases timedOut <;> cases connected <;> cases written <;> simp [checkHttp]

/-! ## What the claim reads as a health check -/

/-- `buf`'s length: the read returns at most that many octets. -/
def bufSize : Nat := 1024

/-- A first read of `response`: a non-empty prefix of it, of at most `bufSize`
octets, however the response was cut into segments. -/
def FirstRead (response bytes : List UInt8) : Prop :=
  bytes <+: response ∧ bytes ≠ [] ∧ bytes.length ≤ bufSize

instance (response bytes : List UInt8) : Decidable (FirstRead response bytes) :=
  inferInstanceAs (Decidable (_ ∧ _ ∧ _))

/-- Whether an octet is an ASCII digit. -/
def isDigit (b : UInt8) : Bool := 0x30 ≤ b && b ≤ 0x39

/-- The status code of an HTTP/1.x response, from its status line
(RFC 9112 §4): `HTTP/1.` and a digit, a space, three digits and a space;
`none` when the response does not start with one. -/
def statusCode (response : List UInt8) : Option Nat :=
  if Utf8.encodeAscii "HTTP/1.".toList <+: response then
    match response.drop 7 with
    | minor :: sp :: d₁ :: d₂ :: d₃ :: sp' :: _ =>
      if isDigit minor && sp == 0x20 && isDigit d₁ && isDigit d₂ && isDigit d₃ && sp' == 0x20 then
        some ((d₁.toNat - 0x30) * 100 + (d₂.toNat - 0x30) * 10 + (d₃.toNat - 0x30))
      else none
    | _ => none
  else none

/-- `check_http` does not decide by the status code.  A `200` response with the
reason phrase `Fine`, read whole, fails; a `404` response whose body is
`200 OK`, read whole, passes; a `200 OK` response whose first read ends inside
the status line fails. -/
theorem checkHttp_not_by_status_code :
    (FirstRead (Utf8.encodeAscii "HTTP/1.1 200 Fine\r\n\r\n".toList)
        (Utf8.encodeAscii "HTTP/1.1 200 Fine\r\n\r\n".toList) ∧
      statusCode (Utf8.encodeAscii "HTTP/1.1 200 Fine\r\n\r\n".toList) = some 200 ∧
      checkHttp ⟨false, true, true,
        .ok (Utf8.encodeAscii "HTTP/1.1 200 Fine\r\n\r\n".toList)⟩ = false) ∧
    (FirstRead (Utf8.encodeAscii "HTTP/1.1 404 Not Found\r\n\r\n200 OK".toList)
        (Utf8.encodeAscii "HTTP/1.1 404 Not Found\r\n\r\n200 OK".toList) ∧
      statusCode (Utf8.encodeAscii "HTTP/1.1 404 Not Found\r\n\r\n200 OK".toList) = some 404 ∧
      checkHttp ⟨false, true, true,
        .ok (Utf8.encodeAscii "HTTP/1.1 404 Not Found\r\n\r\n200 OK".toList)⟩ = true) ∧
    (FirstRead (Utf8.encodeAscii "HTTP/1.1 200 OK\r\n\r\n".toList)
        (Utf8.encodeAscii "HTTP/1.1 20".toList) ∧
      statusCode (Utf8.encodeAscii "HTTP/1.1 200 OK\r\n\r\n".toList) = some 200 ∧
      checkHttp ⟨false, true, true, .ok (Utf8.encodeAscii "HTTP/1.1 20".toList)⟩ = false) := by
  -- spell the responses out as octets first, so that deciding does not decode
  -- the string literals again at each step
  simp only [Utf8.encodeAscii, String.reduceToList, List.map_cons, List.map_nil, Char.reduceToNat,
    Nat.toUInt8_eq, UInt8.reduceOfNat]
  decide

end Layer4Lb
