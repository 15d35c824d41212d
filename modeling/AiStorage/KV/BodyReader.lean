import AiStorage.KV.RecordReader
import AiStorage.Lib.Prog

/-!
# Reading any response body

`_read_body` of `s3_tier.py` as a program of the calls it makes on a body object. Every answer
is possible at every call: chunks of any length, values that are not bytes, exceptions.
-/
namespace AiStorage.KV.BodyReader
open Lib
open Lib.Prog (perform raise)

inductive Given where
  | bytes (data : Bytes)
  | other

inductive BodyAct : Type → Type where
  | read (size : Nat) : BodyAct Given
  | close : BodyAct Unit

abbrev BodyProg := Prog BodyAct PyError

def readFailed : PyError := unavailable "s3 response body read failed"
def nonBytes : PyError := unavailable "s3 response body read returned non-bytes data"
def ignoredSize : PyError := unavailable "s3 response body ignored bounded read size"

def readChunk (size : Nat) : BodyProg Bytes := do
  let data ← (perform (.read size)).handle fun _ => raise readFailed
  match data with
  | .other => raise nonBytes
  | .bytes chunk => if size < chunk.length then raise ignoredSize else return chunk

/-- The loop of `_read_exact`; every round reads a byte or ends. -/
def readRounds (truncated : PyError) : Nat → Nat → BodyProg Bytes
  | _, 0 => return []
  | 0, _ + 1 => raise truncated
  | fuel + 1, remaining + 1 => do
    let chunk ← readChunk (remaining + 1)
    if chunk.isEmpty then raise truncated
    else
      let chunks ← readRounds truncated fuel (remaining + 1 - chunk.length)
      return chunk ++ chunks

def readExact (size : Nat) (truncated : PyError) : BodyProg Bytes := readRounds truncated size size

def prefixLength : Nat := magic.length + 4

def checkPrefix (source : Text) (front : Bytes) : Except PyError Nat := do
  require (front.take magic.length = magic) ⟨.checksumMismatch, source⟩
  let headerLength := beNat (front.drop magic.length)
  require (0 < headerLength && headerLength ≤ maxHeaderBytes)
    (formatError source "invalid record header length")
  return headerLength

def readRecord (now : Readings) (source : Text) (maxPayloadBytes : Int) :
    BodyProg (Header × Bytes) := do
  let front ← readExact prefixLength (checksumError source "truncated record prefix")
  let headerLength ← .ret (checkPrefix source front)
  let rawHeader ← readExact headerLength (formatError source "truncated record header")
  let header ← .ret (decodeRecordHeader now rawHeader source maxPayloadBytes false)
  let payload ← readExact (payloadSize header) (checksumError source "payload length mismatch")
  let extra ← readChunk 1
  if extra.isEmpty then return (header, payload)
  else raise (checksumError source "trailing record data")

structure Shape where
  readable : Bool
  closable : Bool

def failed : Except PyError Unit → Bool
  | .ok _ => false
  | .error _ => true

def closeBody (shape : Shape) : BodyProg Bool :=
  if shape.closable then do
    let closed ← (perform .close).attempt
    return failed closed
  else return false

/-- How the two errors are reported: the one of reading before the one of closing. -/
def report {α : Type} (closeFailed : Bool) : Except PyError α → Except PyError α
  | .error e => .error e
  | .ok value =>
    if closeFailed then .error (unavailable "s3 response body close failed") else .ok value

def readBody (shape : Shape) (now : Readings) (source : Text) (maxPayloadBytes : Int) :
    BodyProg (Header × Bytes) :=
  if shape.readable then do
    let result ← (readRecord now source maxPayloadBytes).attempt
    let closeFailed ← closeBody shape
    .ret (report closeFailed result)
  else do
    let closeFailed ← closeBody shape
    if closeFailed then raise (unavailable "s3 body is unreadable and close failed")
    else raise (unavailable "s3 body does not support read")

/-! ### Runs -/

inductive Event where
  | read (size : Nat) (reply : Except PyError Given)
  | close (reply : Except PyError Unit)

def Ran {α : Type} : BodyProg α → List Event → Except PyError α → Prop
  | .ret x, trace, r => trace = [] ∧ r = x
  | .act (.read size) next, trace, r =>
    ∃ reply rest, trace = .read size reply :: rest ∧ Ran (next reply) rest r
  | .act .close next, trace, r =>
    ∃ reply rest, trace = .close reply :: rest ∧ Ran (next reply) rest r

variable {α β : Type} {truncated : PyError} {front : Bytes}

theorem Ran.thenDo {p : BodyProg α} {next : Except PyError α → BodyProg β}
    {trace : List Event} {r : Except PyError β} (ran : Ran (p.thenDo next) trace r) :
    ∃ first rest middle, trace = first ++ rest ∧ Ran p first middle ∧ Ran (next middle) rest r := by
  induction p generalizing trace with
  | ret x => exact ⟨[], trace, x, rfl, ⟨rfl, rfl⟩, ran⟩
  | act action k ih =>
    cases action with
    | read size | close =>
      obtain ⟨reply, later, rfl, goes⟩ := ran
      obtain ⟨first, last, middle, rfl, begun, ended⟩ := ih reply goes
      exact ⟨_ :: first, last, middle, rfl, ⟨reply, first, rfl, begun⟩, ended⟩

theorem Ran.of_ret {x r : Except PyError α} {trace : List Event}
    (ran : Ran (.ret x) trace r) : trace = [] ∧ r = x := ran

theorem Ran.bind {p : BodyProg α} {f : α → BodyProg β} {trace : List Event}
    {r : Except PyError β} (ran : Ran (p >>= f) trace r) :
    (∃ e, Ran p trace (.error e) ∧ r = .error e) ∨
      ∃ first rest value, trace = first ++ rest ∧ Ran p first (.ok value) ∧
        Ran (f value) rest r := by
  obtain ⟨first, rest, middle, rfl, begun, ended⟩ := Ran.thenDo ran
  cases middle with
  | error e =>
    obtain ⟨rfl, rfl⟩ := Ran.of_ret ended
    exact .inl ⟨e, by rwa [List.append_nil], rfl⟩
  | ok value => exact .inr ⟨first, rest, value, rfl, begun, ended⟩

def Event.chunk : Event → Bytes
  | .read size (.ok (.bytes data)) => if size < data.length then [] else data
  | _ => []

def Event.fault : Event → Option PyError
  | .read _ (.error _) => some readFailed
  | .read _ (.ok .other) => some nonBytes
  | .read size (.ok (.bytes data)) => if size < data.length then some ignoredSize else none
  | .close _ => none

def Event.isClose : Event → Bool
  | .close _ => true
  | .read _ _ => false

def Event.closeFailed : Event → Bool
  | .close reply => failed reply
  | .read _ _ => false

def Event.raised : Event → Bool
  | .read _ (.error _) => true
  | _ => false

def delivered (trace : List Event) : Bytes := trace.flatMap Event.chunk

def fault (trace : List Event) : Option PyError := trace.findSome? Event.fault

@[simp] theorem delivered_append (first rest : List Event) :
    delivered (first ++ rest) = delivered first ++ delivered rest := List.flatMap_append

@[simp] theorem fault_append (first rest : List Event) :
    fault (first ++ rest) = (fault first).or (fault rest) := List.findSome?_append

/-- Every read asks for no more than what `offset` and the bytes accepted before it
leave of `limit`. -/
def Asks (offset limit : Nat) (trace : List Event) : Prop :=
  ∀ before size reply after, trace = before ++ .read size reply :: after →
    offset + (delivered before).length + size ≤ limit

namespace Asks

variable {offset limit : Nat} {first rest trace : List Event}

theorem nil : Asks offset limit [] := by
  intro before size reply after same
  cases before <;> cases same

theorem single {size : Nat} {reply : Except PyError Given} (room : offset + size ≤ limit) :
    Asks offset limit [.read size reply] := by
  intro before size' reply' after same
  cases before with
  | nil =>
    cases same
    exact room
  | cons event more =>
    obtain ⟨-, rest⟩ := List.cons.inj same
    cases more <;> cases rest

theorem append (begun : Asks offset limit first)
    (ended : Asks (offset + (delivered first).length) limit rest) :
    Asks offset limit (first ++ rest) := by
  intro before size reply after same
  rcases List.append_eq_append_iff.mp same with ⟨middle, rfl, tail⟩ | ⟨middle, rfl, tail⟩
  · have asked := ended middle size reply after tail
    rw [delivered_append, List.length_append]
    omega
  · cases middle with
    | nil =>
      have asked := ended [] size reply after tail.symm
      rw [List.append_nil] at asked
      simpa [delivered] using asked
    | cons event more =>
      obtain ⟨rfl, rfl⟩ := List.cons.inj tail
      exact begun before size reply more rfl

theorem mono {more : Nat} (asks : Asks offset limit trace) (room : limit ≤ more) :
    Asks offset more trace := by
  intro before size reply after same
  exact (asks before size reply after same).trans room

theorem shift (asks : Asks 0 limit trace) : Asks offset (offset + limit) trace := by
  intro before size reply after same
  have asked := asks before size reply after same
  omega

end Asks

/-- A bounded read that got all it asked for, every chunk with at least a byte. -/
structure Filled (size : Nat) (trace : List Event) (content : Bytes) : Prop where
  bytes : delivered trace = content
  length : content.length = size
  fault : fault trace = none
  asks : Asks 0 size trace
  reads : ∀ event ∈ trace, event.isClose = false
  nonempty : ∀ event ∈ trace, event.chunk ≠ []

/-- A bounded read that ended early, at a chunk without bytes or a faulty answer. -/
structure Short (size : Nat) (truncated : PyError) (trace : List Event) (e : PyError) : Prop where
  length : (delivered trace).length < size
  error : e = (BodyReader.fault trace).getD truncated
  asks : Asks 0 size trace
  reads : ∀ event ∈ trace, event.isClose = false
  last : ∃ full event, trace = full ++ [event] ∧ (∀ other ∈ full, other.chunk ≠ []) ∧
    event.chunk = []

theorem Ran.readChunk {size : Nat} {trace : List Event} {r : Except PyError Bytes}
    (ran : Ran (readChunk size) trace r) :
    ∃ reply, trace = [.read size reply] ∧
      ((∃ e, (Event.read size reply).fault = some e ∧ (Event.read size reply).chunk = [] ∧
          r = .error e) ∨
        ∃ chunk, (Event.read size reply).fault = none ∧ (Event.read size reply).chunk = chunk ∧
          reply = .ok (.bytes chunk) ∧ chunk.length ≤ size ∧ r = .ok chunk) := by
  obtain ⟨reply, rest, rfl, goes⟩ := ran
  refine ⟨reply, ?_⟩
  cases reply with
  | error e =>
    obtain ⟨rfl, rfl⟩ := Ran.of_ret goes
    exact ⟨rfl, .inl ⟨readFailed, rfl, rfl, rfl⟩⟩
  | ok given =>
    cases given with
    | other =>
      obtain ⟨rfl, rfl⟩ := Ran.of_ret goes
      exact ⟨rfl, .inl ⟨nonBytes, rfl, rfl, rfl⟩⟩
    | bytes chunk =>
      change Ran (if size < chunk.length then raise ignoredSize else .ret (.ok chunk)) rest r
        at goes
      split_ifs at goes with tooMany
      · obtain ⟨rfl, rfl⟩ := Ran.of_ret goes
        refine ⟨rfl, .inl ⟨ignoredSize, ?_, ?_, rfl⟩⟩
        · rw [Event.fault, if_pos tooMany]
        · rw [Event.chunk, if_pos tooMany]
      · obtain ⟨rfl, rfl⟩ := Ran.of_ret goes
        refine ⟨rfl, .inr ⟨chunk, ?_, ?_, rfl, not_lt.mp tooMany, rfl⟩⟩
        · rw [Event.fault, if_neg tooMany]
        · rw [Event.chunk, if_neg tooMany]

theorem delivered_single (event : Event) : delivered [event] = event.chunk := by
  rw [delivered, List.flatMap_singleton]

theorem fault_single (event : Event) : fault [event] = event.fault := by
  rw [fault, List.findSome?_singleton]

section Chunk

variable {size : Nat} {chunk : Bytes}

theorem chunk_of_bound (bound : chunk.length ≤ size) :
    (Event.read size (.ok (.bytes chunk))).chunk = chunk := by
  rw [Event.chunk, if_neg (not_lt.mpr bound)]

theorem fault_of_bound (bound : chunk.length ≤ size) :
    (Event.read size (.ok (.bytes chunk))).fault = none := by
  rw [Event.fault, if_neg (not_lt.mpr bound)]

theorem Short.of_empty {truncated : PyError} (positive : 0 < size) :
    Short size truncated [.read size (.ok (.bytes []))] truncated where
  length := by
    rw [delivered_single, chunk_of_bound (Nat.zero_le size)]
    exact positive
  error := by rw [fault_single, fault_of_bound (Nat.zero_le size), Option.getD_none]
  asks := .single (by omega)
  reads := by
    intro event member
    rw [List.mem_singleton.mp member]
    rfl
  last := ⟨[], _, rfl, by simp, chunk_of_bound (Nat.zero_le size)⟩

theorem delivered_cons_chunk (bound : chunk.length ≤ size) (trace : List Event) :
    delivered (.read size (.ok (.bytes chunk)) :: trace) = chunk ++ delivered trace := by
  rw [delivered, List.flatMap_cons, chunk_of_bound bound, ← delivered]

theorem fault_cons_chunk (bound : chunk.length ≤ size) (trace : List Event) :
    fault (.read size (.ok (.bytes chunk)) :: trace) = fault trace := by
  rw [fault, List.findSome?_cons, fault_of_bound bound, ← fault]

theorem asks_cons_chunk (bound : chunk.length ≤ size) {trace : List Event}
    (asks : Asks 0 (size - chunk.length) trace) :
    Asks 0 size (.read size (.ok (.bytes chunk)) :: trace) := by
  have later : Asks (0 + (delivered [.read size (.ok (.bytes chunk))]).length) size trace := by
    rw [delivered_single, chunk_of_bound bound, Nat.zero_add]
    exact asks.shift.mono (by omega)
  exact Asks.append (.single (by omega)) later

theorem Short.cons {truncated e : PyError} {trace : List Event} (bound : chunk.length ≤ size)
    (some : chunk ≠ []) (short : Short (size - chunk.length) truncated trace e) :
    Short size truncated (.read size (.ok (.bytes chunk)) :: trace) e where
  length := by
    have fewer := short.length
    rw [delivered_cons_chunk bound, List.length_append]
    omega
  error := by rw [fault_cons_chunk bound, short.error]
  asks := asks_cons_chunk bound short.asks
  reads := List.forall_mem_cons.mpr ⟨rfl, short.reads⟩
  last := by
    obtain ⟨full, event, rfl, each, none⟩ := short.last
    refine ⟨_ :: full, event, rfl, List.forall_mem_cons.mpr ⟨?_, each⟩, none⟩
    rwa [chunk_of_bound bound]

theorem Filled.cons {trace : List Event} {bytes : Bytes} (bound : chunk.length ≤ size)
    (some : chunk ≠ []) (filled : Filled (size - chunk.length) trace bytes) :
    Filled size (.read size (.ok (.bytes chunk)) :: trace) (chunk ++ bytes) where
  bytes := by rw [delivered_cons_chunk bound, filled.bytes]
  length := by
    have rest := filled.length
    rw [List.length_append]
    omega
  fault := by rw [fault_cons_chunk bound, filled.fault]
  asks := asks_cons_chunk bound filled.asks
  reads := List.forall_mem_cons.mpr ⟨rfl, filled.reads⟩
  nonempty := List.forall_mem_cons.mpr ⟨by rwa [chunk_of_bound bound], filled.nonempty⟩

end Chunk

theorem Ran.readRounds {fuel remaining : Nat} {trace : List Event}
    {r : Except PyError Bytes} (ran : Ran (readRounds truncated fuel remaining) trace r)
    (enough : remaining ≤ fuel) :
    (∃ bytes, Filled remaining trace bytes ∧ r = .ok bytes) ∨
      ∃ e, Short remaining truncated trace e ∧ r = .error e := by
  induction fuel generalizing remaining trace r with
  | zero =>
    obtain rfl : remaining = 0 := by omega
    obtain ⟨rfl, rfl⟩ := Ran.of_ret ran
    exact .inl ⟨[], ⟨rfl, rfl, rfl, .nil, by simp, by simp⟩, rfl⟩
  | succ fuel ih =>
    cases remaining with
    | zero =>
      obtain ⟨rfl, rfl⟩ := Ran.of_ret ran
      exact .inl ⟨[], ⟨rfl, rfl, rfl, .nil, by simp, by simp⟩, rfl⟩
    | succ remaining =>
      rcases Ran.bind ran with ⟨e, asked, rfl⟩ | ⟨first, rest, chunk, rfl, asked, goes⟩
      · obtain ⟨reply, rfl, ⟨e', faulty, none, same⟩ | ⟨chunk, -, -, -, -, wrong⟩⟩ :=
          Ran.readChunk asked
        · cases same
          refine .inr ⟨e, ⟨?_, ?_, .single (by omega), ?_, ⟨[], _, rfl, by simp, none⟩⟩, rfl⟩
          · rw [delivered_single, none]
            exact Nat.succ_pos remaining
          · rw [fault_single, faulty, Option.getD_some]
          · intro event member
            rw [List.mem_singleton.mp member]
            rfl
        · cases wrong
      · obtain ⟨reply, rfl, ⟨e, -, -, wrong⟩ | ⟨data, sound, got, rfl, bound, same⟩⟩ :=
          Ran.readChunk asked
        · cases wrong
        · cases same
          by_cases empty : chunk = []
          · subst empty
            obtain ⟨rfl, rfl⟩ := Ran.of_ret goes
            exact .inr ⟨truncated, Short.of_empty (Nat.succ_pos remaining), rfl⟩
          · have some : ¬ chunk.isEmpty = true := by simpa using empty
            rw [if_neg some] at goes
            have positive := List.length_pos_iff.mpr empty
            rcases Ran.bind goes with ⟨e, failed, rfl⟩ | ⟨second, last, bytes, rfl, filled, ends⟩
            · rcases ih failed (by omega) with ⟨bytes, -, wrong⟩ | ⟨e', short, same⟩
              · cases wrong
              · cases same
                exact .inr ⟨e, short.cons bound empty, rfl⟩
            · obtain ⟨rfl, rfl⟩ := Ran.of_ret ends
              rcases ih filled (by omega) with ⟨bytes', full, same⟩ | ⟨e, -, wrong⟩
              · cases same
                rw [List.append_nil]
                exact .inl ⟨chunk ++ bytes, full.cons bound empty, rfl⟩
              · cases wrong

theorem Ran.readExact {size : Nat} {f : Bytes → BodyProg α}
    {trace : List Event} {r : Except PyError α}
    (ran : Ran (BodyReader.readExact size truncated >>= f) trace r) :
    (∃ e, Short size truncated trace e ∧ r = .error e) ∨
      ∃ first rest bytes, trace = first ++ rest ∧ Filled size first bytes ∧
        Ran (f bytes) rest r := by
  rcases Ran.bind ran with ⟨e, failed, rfl⟩ | ⟨first, rest, bytes, rfl, got, goes⟩
  · rcases Ran.readRounds failed le_rfl with ⟨bytes, -, wrong⟩ | ⟨e', short, same⟩
    · cases wrong
    · cases same
      exact .inl ⟨e, short, rfl⟩
  · rcases Ran.readRounds got le_rfl with ⟨bytes', filled, same⟩ | ⟨e, -, wrong⟩
    · cases same
      exact .inr ⟨first, rest, bytes, rfl, filled, goes⟩
    · cases wrong

section Reading

variable (now : Readings) (source : Text) (maxPayloadBytes : Int)

/-- The ways in which the guarded part can go, with its calls in the parts they belong to. -/
inductive Reading : List Event → Except PyError (Header × Bytes) → Prop where
  | noPrefix {t : List Event} {e : PyError}
      (short : Short prefixLength (checksumError source "truncated record prefix") t e) :
      Reading t (.error e)
  | badPrefix {t : List Event} {front : Bytes} {e : PyError} (filled : Filled prefixLength t front)
      (bad : checkPrefix source front = .error e) : Reading t (.error e)
  | noHeader {t u : List Event} {front : Bytes} {length : Nat} {e : PyError}
      (filled : Filled prefixLength t front) (checked : checkPrefix source front = .ok length)
      (short : Short length (formatError source "truncated record header") u e) :
      Reading (t ++ u) (.error e)
  | badHeader {t u : List Event} {front raw : Bytes} {length : Nat} {e : PyError}
      (filled : Filled prefixLength t front) (checked : checkPrefix source front = .ok length)
      (rawFilled : Filled length u raw)
      (bad : decodeRecordHeader now raw source maxPayloadBytes false = .error e) :
      Reading (t ++ u) (.error e)
  | noPayload {t u v : List Event} {front raw : Bytes} {length : Nat} {header : Header}
      {e : PyError} (filled : Filled prefixLength t front)
      (checked : checkPrefix source front = .ok length) (rawFilled : Filled length u raw)
      (decoded : decodeRecordHeader now raw source maxPayloadBytes false = .ok header)
      (short : Short (payloadSize header) (checksumError source "payload length mismatch") v e) :
      Reading (t ++ (u ++ v)) (.error e)
  | whole {t u v : List Event} {front raw payload : Bytes} {length : Nat} {header : Header}
      {reply : Except PyError Given} {r : Except PyError (Header × Bytes)}
      (filled : Filled prefixLength t front) (checked : checkPrefix source front = .ok length)
      (rawFilled : Filled length u raw)
      (decoded : decodeRecordHeader now raw source maxPayloadBytes false = .ok header)
      (payloadFilled : Filled (payloadSize header) v payload)
      (last : (∃ e, (Event.read 1 reply).fault = some e ∧ (Event.read 1 reply).chunk = [] ∧
          r = .error e) ∨
        (∃ chunk, chunk ≠ [] ∧ (Event.read 1 reply).chunk = chunk ∧ chunk.length ≤ 1 ∧
          r = .error (checksumError source "trailing record data")) ∨
        (reply = .ok (.bytes []) ∧ r = .ok (header, payload))) :
      Reading (t ++ (u ++ (v ++ [.read 1 reply]))) r

variable {now source maxPayloadBytes}

theorem Ran.readRecord {trace : List Event} {r : Except PyError (Header × Bytes)}
    (ran : Ran (readRecord now source maxPayloadBytes) trace r) :
    Reading now source maxPayloadBytes trace r := by
  rcases Ran.readExact ran with ⟨e, short, rfl⟩ | ⟨t, rest, front, rfl, filled, goes⟩
  · exact .noPrefix short
  cases checked : checkPrefix source front with
  | error e =>
    rw [checked] at goes
    obtain ⟨rfl, rfl⟩ := Ran.of_ret goes
    rw [List.append_nil]
    exact .badPrefix filled checked
  | ok length =>
    rw [checked] at goes
    rcases Ran.readExact goes with ⟨e, short, rfl⟩ | ⟨u, rest, raw, rfl, rawFilled, goes⟩
    · exact .noHeader filled checked short
    cases decoded : decodeRecordHeader now raw source maxPayloadBytes false with
    | error e =>
      rw [decoded] at goes
      obtain ⟨rfl, rfl⟩ := Ran.of_ret goes
      rw [List.append_nil]
      exact .badHeader filled checked rawFilled decoded
    | ok header =>
      rw [decoded] at goes
      rcases Ran.readExact goes with ⟨e, short, rfl⟩ | ⟨v, rest, payload, rfl, payloadFilled, goes⟩
      · exact .noPayload filled checked rawFilled decoded short
      rcases Ran.bind goes with ⟨e, failed, rfl⟩ | ⟨w, rest, extra, rfl, got, ends⟩
      · obtain ⟨reply, rfl, ⟨e', faulty, none, same⟩ | ⟨chunk, -, -, -, -, wrong⟩⟩ :=
          Ran.readChunk failed
        · cases same
          exact .whole filled checked rawFilled decoded payloadFilled
            (.inl ⟨e, faulty, none, rfl⟩)
        · cases wrong
      · obtain ⟨reply, rfl, ⟨e, -, -, wrong⟩ | ⟨chunk, -, here, rfl, bound, same⟩⟩ :=
          Ran.readChunk got
        · cases wrong
        · cases same
          by_cases empty : extra = []
          · subst empty
            obtain ⟨rfl, rfl⟩ := Ran.of_ret ends
            rw [List.append_nil]
            exact .whole filled checked rawFilled decoded payloadFilled (.inr (.inr ⟨rfl, rfl⟩))
          · rw [if_neg (by simpa using empty)] at ends
            obtain ⟨rfl, rfl⟩ := Ran.of_ret ends
            rw [List.append_nil]
            exact .whole filled checked rawFilled decoded payloadFilled
              (.inr (.inl ⟨extra, empty, here, bound, rfl⟩))

end Reading

/-! ### What a run says of the accepted bytes -/

def takeExactly (size : Nat) (otherwise : PyError) (bytes : Bytes) :
    Except PyError (Bytes × Bytes) :=
  if size ≤ bytes.length then .ok (bytes.take size, bytes.drop size) else .error otherwise

/-- The record that the bytes are. Where they end too soon, `fault` says why, if it was
not the end of the stream. -/
def parse (now : Readings) (source : Text) (maxPayloadBytes : Int) (fault : Option PyError)
    (bytes : Bytes) : Except PyError (Header × Bytes) := do
  let (front, bytes) ← takeExactly prefixLength
    (fault.getD (checksumError source "truncated record prefix")) bytes
  let headerLength ← checkPrefix source front
  let (rawHeader, bytes) ← takeExactly headerLength
    (fault.getD (formatError source "truncated record header")) bytes
  let header ← decodeRecordHeader now rawHeader source maxPayloadBytes false
  let (payload, bytes) ← takeExactly (payloadSize header)
    (fault.getD (checksumError source "payload length mismatch")) bytes
  require bytes.isEmpty (checksumError source "trailing record data")
  match fault with
  | some e => .error e
  | none => return (header, payload)

theorem Filled.takeExactly {size : Nat} {trace : List Event}
    (filled : Filled size trace front) (otherwise : PyError) (rest : Bytes) :
    takeExactly size otherwise (delivered trace ++ rest) = .ok (front, rest) := by
  rw [filled.bytes, BodyReader.takeExactly, ← filled.length, if_pos (by simp), List.take_left,
    List.drop_left]

theorem Short.takeExactly {size : Nat} {e : PyError} {trace : List Event}
    (short : Short size truncated trace e) :
    takeExactly size ((fault trace).getD truncated) (delivered trace) = .error e := by
  rw [BodyReader.takeExactly, if_neg (not_le.mpr short.length), short.error]

def announcedHeader (bytes : Bytes) : Nat :=
  if prefixLength ≤ bytes.length then beNat ((bytes.take prefixLength).drop magic.length) else 0

def announcedPayload (now : Readings) (source : Text) (maxPayloadBytes : Int) (bytes : Bytes) :
    Nat :=
  let raw := (bytes.drop prefixLength).take (announcedHeader bytes)
  if prefixLength + announcedHeader bytes ≤ bytes.length then
    match decodeRecordHeader now raw source maxPayloadBytes false with
    | .ok header => payloadSize header
    | .error _ => 0
  else 0

/-- All that one record takes, and one byte to see that nothing follows it. -/
def announced (now : Readings) (source : Text) (maxPayloadBytes : Int) (bytes : Bytes) : Nat :=
  prefixLength + announcedHeader bytes + announcedPayload now source maxPayloadBytes bytes + 1

theorem checkPrefix_ok {source : Text} {length : Nat}
    (checked : checkPrefix source front = .ok length) :
    front.take magic.length = magic ∧ length = beNat (front.drop magic.length) ∧ 0 < length ∧
      length ≤ maxHeaderBytes := by
  simp only [checkPrefix, bind_unit_ok, require_ok, decide_eq_true_eq,
    Bool.and_eq_true] at checked
  obtain ⟨isMagic, bounds, same⟩ := checked
  cases same
  exact ⟨isMagic, rfl, bounds⟩

theorem announcedHeader_append (length : front.length = prefixLength)
    (rest : Bytes) : announcedHeader (front ++ rest) = beNat (front.drop magic.length) := by
  rw [announcedHeader, if_pos (by rw [List.length_append, length]; omega), ← length, List.take_left]

section Laws

variable {now : Readings} {source : Text} {maxPayloadBytes : Int} {trace : List Event}
  {r : Except PyError (Header × Bytes)}

variable {header : Header} {t : List Event} {shape : Shape}

theorem announcedPayload_append {front raw : Bytes} (length : front.length = prefixLength)
    (complete : raw.length = beNat (front.drop magic.length))
    (decoded : decodeRecordHeader now raw source maxPayloadBytes false = .ok header)
    (rest : Bytes) :
    announcedPayload now source maxPayloadBytes (front ++ (raw ++ rest)) = payloadSize header := by
  have header_eq := announcedHeader_append length (raw ++ rest)
  have present : prefixLength + announcedHeader (front ++ (raw ++ rest)) ≤
      (front ++ (raw ++ rest)).length := by
    rw [header_eq, ← complete, List.length_append, List.length_append, length]
    omega
  rw [announcedPayload, if_pos present, header_eq, ← length, List.drop_left, ← complete,
    List.take_left, decoded]

/-- The outcome is what the accepted bytes and the first fault say. -/
theorem Reading.parse (reading : Reading now source maxPayloadBytes trace r) :
    r = parse now source maxPayloadBytes (fault trace) (delivered trace) := by
  unfold BodyReader.parse
  cases reading with
  | noPrefix short =>
    rw [short.takeExactly]
    rfl
  | badPrefix filled bad =>
    have front := filled.takeExactly
      ((fault trace).getD (checksumError source "truncated record prefix")) []
    rw [List.append_nil] at front
    rw [front]
    simp only [bind, Except.bind, bad]
  | noHeader filled checked short =>
    rw [delivered_append, fault_append, filled.fault, Option.none_or, filled.takeExactly]
    simp only [bind, Except.bind, checked, short.takeExactly]
  | badHeader filled checked rawFilled bad =>
    rw [delivered_append, fault_append, filled.fault, Option.none_or, filled.takeExactly,
      rawFilled.fault]
    have raw := rawFilled.takeExactly (formatError source "truncated record header") []
    rw [List.append_nil] at raw
    simp only [bind, Except.bind, checked, Option.getD_none, raw, bad]
  | noPayload filled checked rawFilled decoded short =>
    rw [delivered_append, delivered_append, fault_append, fault_append, filled.fault,
      rawFilled.fault, Option.none_or, Option.none_or, filled.takeExactly]
    simp only [bind, Except.bind, checked, rawFilled.takeExactly, decoded, short.takeExactly]
  | whole filled checked rawFilled decoded payloadFilled last =>
    rw [delivered_append, delivered_append, delivered_append, fault_append, fault_append,
      fault_append, filled.fault, rawFilled.fault, payloadFilled.fault, Option.none_or,
      Option.none_or, Option.none_or, filled.takeExactly, delivered_single, fault_single]
    simp only [bind, Except.bind, checked, rawFilled.takeExactly, decoded,
      payloadFilled.takeExactly]
    rcases last with ⟨e, faulty, none, rfl⟩ | ⟨chunk, some, got, -, rfl⟩ | ⟨rfl, rfl⟩
    · rw [faulty, none]
      rfl
    · rw [got, Lib.require, if_neg (by simpa using some)]
    · rw [fault_of_bound (Nat.zero_le 1), chunk_of_bound (Nat.zero_le 1)]
      rfl

theorem Filled.delivered_length {size : Nat} {content : Bytes}
    (filled : Filled size t content) : (delivered t).length = size := by
  rw [filled.bytes, filled.length]

theorem announced_header {front : Bytes} {length : Nat}
    (filled : Filled prefixLength t front) (checked : checkPrefix source front = .ok length)
    (rest : List Event) :
    prefixLength + length + 1 ≤ announced now source maxPayloadBytes (delivered (t ++ rest)) := by
  obtain ⟨-, announces, -⟩ := checkPrefix_ok checked
  have header : announcedHeader (delivered (t ++ rest)) = length := by
    rw [delivered_append, filled.bytes, announcedHeader_append filled.length, announces]
  unfold announced
  omega

theorem announced_payload {u : List Event} {front raw : Bytes} {length : Nat}
    (filled : Filled prefixLength t front) (checked : checkPrefix source front = .ok length)
    (rawFilled : Filled length u raw)
    (decoded : decodeRecordHeader now raw source maxPayloadBytes false = .ok header)
    (rest : List Event) :
    prefixLength + length + payloadSize header + 1 =
      announced now source maxPayloadBytes (delivered (t ++ (u ++ rest))) := by
  obtain ⟨-, announces, -⟩ := checkPrefix_ok checked
  have complete : raw.length = beNat (front.drop magic.length) := rawFilled.length.trans announces
  have split : delivered (t ++ (u ++ rest)) = front ++ (raw ++ delivered rest) := by
    rw [delivered_append, delivered_append, filled.bytes, rawFilled.bytes]
  rw [announced, split, announcedHeader_append filled.length,
    announcedPayload_append filled.length complete decoded, announces]

theorem Reading.asks (reading : Reading now source maxPayloadBytes trace r) :
    Asks 0 (announced now source maxPayloadBytes (delivered trace)) trace ∧
      (delivered trace).length ≤ announced now source maxPayloadBytes (delivered trace) := by
  have room : prefixLength ≤ announced now source maxPayloadBytes (delivered trace) := by
    unfold announced
    omega
  cases reading with
  | noPrefix short =>
    have few := short.length
    exact ⟨short.asks.mono room, by omega⟩
  | badPrefix filled bad =>
    have all := filled.delivered_length
    exact ⟨filled.asks.mono room, by omega⟩
  | @noHeader t u front length e filled checked short =>
    have all := filled.delivered_length
    have few := short.length
    have room := @announced_header now source maxPayloadBytes _ _ _ filled checked u
    constructor
    · exact Asks.append (filled.asks.mono (by omega)) (short.asks.shift.mono (by omega))
    · refine le_trans ?_ room
      rw [delivered_append, List.length_append]
      omega
  | @badHeader t u front raw length e filled checked rawFilled bad =>
    have all := filled.delivered_length
    have rest := rawFilled.delivered_length
    have room := @announced_header now source maxPayloadBytes _ _ _ filled checked u
    constructor
    · exact Asks.append (filled.asks.mono (by omega)) (rawFilled.asks.shift.mono (by omega))
    · refine le_trans ?_ room
      rw [delivered_append, List.length_append]
      omega
  | @noPayload t u v front raw length header e filled checked rawFilled decoded short =>
    have all := filled.delivered_length
    have rest := rawFilled.delivered_length
    have few := short.length
    have room := announced_payload filled checked rawFilled decoded v
    constructor
    · exact Asks.append (filled.asks.mono (by omega)) (Asks.append
        (rawFilled.asks.shift.mono (by omega)) (short.asks.shift.mono (by omega)))
    · rw [← room, delivered_append, delivered_append, List.length_append, List.length_append]
      omega
  | @whole t u v front raw payload length header reply r filled checked rawFilled decoded
      payloadFilled last =>
    have all := filled.delivered_length
    have rest := rawFilled.delivered_length
    have more := payloadFilled.delivered_length
    have room := announced_payload filled checked rawFilled decoded (v ++ [.read 1 reply])
    have one : (Event.read 1 reply).chunk.length ≤ 1 := by
      rcases last with ⟨e, -, none, -⟩ | ⟨chunk, -, got, bound, -⟩ | ⟨rfl, -⟩
      · rw [none]
        exact Nat.zero_le 1
      · rwa [got]
      · exact Nat.zero_le 1
    constructor
    · exact Asks.append (filled.asks.mono (by omega)) (Asks.append
        (rawFilled.asks.shift.mono (by omega)) (Asks.append
          (payloadFilled.asks.shift.mono (by omega)) (.single (by omega))))
    · rw [← room, delivered_append, delivered_append, delivered_append, delivered_single,
        List.length_append, List.length_append, List.length_append]
      omega

/-- An answer without accepted bytes is the last one. -/
def Stops (trace : List Event) : Prop :=
  ∀ before event after, trace = before ++ event :: after → event.chunk = [] → after = []

theorem Stops.single (event : Event) : Stops [event] := by
  intro before other after same _
  cases before with
  | nil => exact (List.cons.inj same).2.symm
  | cons first more =>
    obtain ⟨-, rest⟩ := List.cons.inj same
    cases more <;> cases rest

theorem Stops.append {full rest : List Event} (some : ∀ event ∈ full, event.chunk ≠ [])
    (stops : Stops rest) : Stops (full ++ rest) := by
  intro before event after same none
  rcases List.append_eq_append_iff.mp same with ⟨middle, rfl, tail⟩ | ⟨middle, rfl, tail⟩
  · exact stops middle event after tail none
  · cases middle with
    | nil => exact stops [] event after tail.symm none
    | cons first more =>
      obtain ⟨rfl, rfl⟩ := List.cons.inj tail
      exact absurd none (some event (by simp))

theorem Filled.stops {size : Nat} {content : Bytes} (filled : Filled size t content) : Stops t := by
  intro before event after same none
  exact absurd none (filled.nonempty event (by simp [same]))

theorem Short.stops {size : Nat} {truncated e : PyError}
    (short : Short size truncated t e) : Stops t := by
  obtain ⟨full, event, rfl, each, -⟩ := short.last
  exact Stops.append each (.single event)

theorem Reading.stops (reading : Reading now source maxPayloadBytes trace r) : Stops trace := by
  cases reading with
  | noPrefix short => exact short.stops
  | badPrefix filled => exact filled.stops
  | noHeader filled _ short => exact .append filled.nonempty short.stops
  | badHeader filled _ rawFilled => exact .append filled.nonempty rawFilled.stops
  | noPayload filled _ rawFilled _ short =>
    exact .append filled.nonempty (.append rawFilled.nonempty short.stops)
  | whole filled _ rawFilled _ payloadFilled =>
    exact .append filled.nonempty
      (.append rawFilled.nonempty (.append payloadFilled.nonempty (.single _)))

theorem Reading.reads (reading : Reading now source maxPayloadBytes trace r) :
    ∀ event ∈ trace, event.isClose = false := by
  cases reading with
  | noPrefix short => exact short.reads
  | badPrefix filled => exact filled.reads
  | noHeader filled _ short => exact List.forall_mem_append.mpr ⟨filled.reads, short.reads⟩
  | badHeader filled _ rawFilled =>
    exact List.forall_mem_append.mpr ⟨filled.reads, rawFilled.reads⟩
  | noPayload filled _ rawFilled _ short =>
    exact List.forall_mem_append.mpr
      ⟨filled.reads, List.forall_mem_append.mpr ⟨rawFilled.reads, short.reads⟩⟩
  | whole filled _ rawFilled _ payloadFilled =>
    exact List.forall_mem_append.mpr ⟨filled.reads, List.forall_mem_append.mpr
      ⟨rawFilled.reads, List.forall_mem_append.mpr ⟨payloadFilled.reads, by simp [Event.isClose]⟩⟩⟩

theorem Reading.record {payload : Bytes}
    (reading : Reading now source maxPayloadBytes trace (.ok (header, payload))) :
    IsRecord (decodeRecordHeader now · source maxPayloadBytes false) (delivered trace) header
        payload [] ∧
      ∃ before, trace = before ++ [.read 1 (.ok (.bytes []))] := by
  cases reading with
  | @whole t u v front raw payload length header reply r filled checked rawFilled decoded
      payloadFilled last =>
    rcases last with ⟨e, -, -, wrong⟩ | ⟨chunk, -, -, -, wrong⟩ | ⟨rfl, same⟩
    · cases wrong
    · cases wrong
    · cases same
      obtain ⟨isMagic, announces, bounds⟩ := checkPrefix_ok checked
      have split := List.take_append_drop magic.length front
      rw [isMagic] at split
      have width : (front.drop magic.length).length = 4 := by
        rw [List.length_drop, filled.length]
        rfl
      rw [announces] at bounds
      have record := @isRecord_of_pieces (decodeRecordHeader now · source maxPayloadBytes false)
        header _ _ _ [] width bounds (rawFilled.length.trans announces) decoded payloadFilled.length
      constructor
      · rw [delivered_append, delivered_append, delivered_append, filled.bytes, rawFilled.bytes,
          payloadFilled.bytes, delivered_single, chunk_of_bound (Nat.zero_le 1)]
        rwa [← List.append_assoc, split] at record
      · exact ⟨t ++ (u ++ v), by simp⟩

theorem Ran.closeBody {closeFailed : Except PyError Bool}
    (ran : Ran (closeBody shape) trace closeFailed) :
    closeFailed = .ok (trace.any Event.closeFailed) ∧
      trace.countP Event.isClose = (if shape.closable then 1 else 0) ∧
      ∀ event ∈ trace, event.isClose = true := by
  unfold BodyReader.closeBody at ran
  split_ifs at ran ⊢ with closable
  · obtain ⟨reply, rest, rfl, goes⟩ := ran
    obtain ⟨rfl, rfl⟩ := Ran.of_ret goes
    refine ⟨?_, rfl, by simp [Event.isClose]⟩
    simp [Event.closeFailed]
  · obtain ⟨rfl, rfl⟩ := Ran.of_ret ran
    exact ⟨rfl, rfl, by simp⟩

theorem Ran.readBody (readable : shape.readable = true)
    (ran : Ran (readBody shape now source maxPayloadBytes) trace r) :
    ∃ reads closes result, trace = reads ++ closes ∧
      Reading now source maxPayloadBytes reads result ∧
      closes.countP Event.isClose = (if shape.closable then 1 else 0) ∧
      (∀ event ∈ closes, event.isClose = true) ∧
      r = report (closes.any Event.closeFailed) result := by
  unfold BodyReader.readBody at ran
  rw [if_pos readable] at ran
  rcases Ran.bind ran with ⟨e, attempted, rfl⟩ | ⟨reads, rest, result, rfl, attempted, goes⟩
  · obtain ⟨-, rest, result, -, -, ends⟩ := Ran.thenDo attempted
    cases (Ran.of_ret ends).2
  · obtain ⟨before, after, result', rfl, got, ends⟩ := Ran.thenDo attempted
    obtain ⟨rfl, same⟩ := Ran.of_ret ends
    cases same
    rw [List.append_nil] at attempted ⊢
    rcases Ran.bind goes with ⟨e, closed, rfl⟩ | ⟨closes, last, closeFailed, rfl, closed, ends⟩
    · cases (Ran.closeBody closed).1
    · obtain ⟨rfl, rfl⟩ := Ran.of_ret ends
      obtain ⟨same, once, all⟩ := Ran.closeBody closed
      cases same
      rw [List.append_nil]
      exact ⟨before, closes, result, rfl, Ran.readRecord got, once, all, rfl⟩

theorem Ran.unreadable (unreadable : shape.readable = false)
    (ran : Ran (BodyReader.readBody shape now source maxPayloadBytes) trace r) :
    trace.countP Event.isClose = (if shape.closable then 1 else 0) ∧
      (∀ event ∈ trace, event.isClose = true) ∧
      r = .error (if trace.any Event.closeFailed then
        unavailable "s3 body is unreadable and close failed"
        else unavailable "s3 body does not support read") := by
  unfold BodyReader.readBody at ran
  rw [if_neg (by simp [unreadable])] at ran
  rcases Ran.bind ran with ⟨e, closed, rfl⟩ | ⟨closes, last, closeFailed, rfl, closed, ends⟩
  · cases (Ran.closeBody closed).1
  · obtain ⟨same, once, all⟩ := Ran.closeBody closed
    cases same
    split_ifs at ends with failing
    · obtain ⟨rfl, rfl⟩ := Ran.of_ret ends
      rw [List.append_nil, if_pos failing]
      exact ⟨once, all, rfl⟩
    · obtain ⟨rfl, rfl⟩ := Ran.of_ret ends
      rw [List.append_nil, if_neg failing]
      exact ⟨once, all, rfl⟩

end Laws

section Closes

variable {closes : List Event} (all : ∀ event ∈ closes, event.isClose = true)
include all

theorem chunk_of_closes {event : Event} (member : event ∈ closes) : event.chunk = [] := by
  cases event with
  | close reply => rfl
  | read size reply => cases all _ member

theorem delivered_closes : delivered closes = [] :=
  List.flatMap_eq_nil_iff.mpr fun _ member => chunk_of_closes all member

theorem fault_closes : fault closes = none := by
  refine List.findSome?_eq_none_iff.mpr fun event member => ?_
  cases event with
  | close reply => rfl
  | read size reply => cases all _ member

theorem asks_closes (offset limit : Nat) : Asks offset limit closes := by
  intro before size reply after same
  cases all (.read size reply) (by simp [same])

end Closes

theorem closeFailed_reads {reads : List Event} (all : ∀ event ∈ reads, event.isClose = false) :
    reads.any Event.closeFailed = false := by
  rw [List.any_eq_false]
  intro event member
  cases event with
  | read size reply => simp [Event.closeFailed]
  | close reply => cases all _ member

theorem isClose_reads {reads : List Event} (all : ∀ event ∈ reads, event.isClose = false) :
    reads.countP Event.isClose = 0 :=
  List.countP_eq_zero.mpr fun event member => by simp [all event member]

def Event.Respects : Event → Prop
  | .read size (.ok (.bytes data)) => data.length ≤ size
  | .read _ (.ok .other) => False
  | _ => True

theorem fault_of_respects {trace : List Event} (respects : ∀ event ∈ trace, event.Respects) :
    fault trace = if trace.any Event.raised then some readFailed else none := by
  induction trace with
  | nil => rfl
  | cons event rest ih =>
    have later := ih fun other member => respects other (List.mem_cons_of_mem event member)
    have here := respects event List.mem_cons_self
    cases event with
    | close reply =>
      rw [List.any_cons, show Event.raised (.close reply) = false from rfl, Bool.false_or]
      exact later
    | read size reply =>
      cases reply with
      | error e => rfl
      | ok given =>
        cases given with
        | other => exact here.elim
        | bytes data =>
          rw [fault_cons_chunk here, later, List.any_cons,
            show Event.raised (.read size (.ok (.bytes data))) = false from rfl, Bool.false_or]

theorem report_ok {closeFailed : Bool} {result : Except PyError α} {value : α}
    (reported : report closeFailed result = .ok value) :
    result = .ok value ∧ closeFailed = false := by
  cases result with
  | error e => cases reported
  | ok other =>
    cases closeFailed with
    | true => cases reported
    | false => exact ⟨reported, rfl⟩

theorem readBody_outcome {shape : Shape} {now : Readings} {source : Text} {maxPayloadBytes : Int}
    {trace : List Event} {r : Except PyError (Header × Bytes)} (readable : shape.readable = true)
    (ran : Ran (readBody shape now source maxPayloadBytes) trace r) :
    r = report (trace.any Event.closeFailed)
        (parse now source maxPayloadBytes (fault trace) (delivered trace)) ∧
      ∀ before event after, trace = before ++ event :: after → event.chunk = [] →
        ∀ other ∈ after, other.isClose = true := by
  obtain ⟨reads, closes, result, rfl, reading, -, all, rfl⟩ := Ran.readBody readable ran
  constructor
  · rw [delivered_append, fault_append, delivered_closes all, fault_closes all, List.append_nil,
      Option.or_none, List.any_append, closeFailed_reads reading.reads, Bool.false_or,
      ← reading.parse]
  · intro before event after same none other later
    rcases List.append_eq_append_iff.mp same with ⟨middle, rfl, tail⟩ | ⟨middle, rfl, tail⟩
    · exact all other (by simp [tail, later])
    · cases middle with
      | nil =>
        rw [List.nil_append] at tail
        exact all other (tail ▸ List.mem_cons_of_mem event later)
      | cons first more =>
        obtain ⟨rfl, rest⟩ := List.cons.inj tail
        rw [rest, reading.stops before event more rfl none] at later
        exact all other later

/-- Two runs of `_read_body` whose bodies kept to the asked sizes and handed out the same
bytes, alike in whether a read or the close raised, end alike. -/
theorem readBody_chunking {shape : Shape} {now : Readings} {source : Text} {maxPayloadBytes : Int}
    {trace other : List Event} {r r' : Except PyError (Header × Bytes)}
    (ran : Ran (readBody shape now source maxPayloadBytes) trace r)
    (also : Ran (readBody shape now source maxPayloadBytes) other r')
    (respects : ∀ event ∈ trace, event.Respects) (respects' : ∀ event ∈ other, event.Respects)
    (bytes : delivered trace = delivered other)
    (raised : trace.any Event.raised = other.any Event.raised)
    (closed : trace.any Event.closeFailed = other.any Event.closeFailed) : r = r' := by
  cases readable : shape.readable with
  | false =>
    rw [(Ran.unreadable readable ran).2.2, (Ran.unreadable readable also).2.2, closed]
  | true =>
    rw [(readBody_outcome readable ran).1, (readBody_outcome readable also).1,
      fault_of_respects respects, fault_of_respects respects', bytes, raised, closed]

/-- Every run of `_read_body`, on a body that answers in any way:
it ends as any other run over the same bytes does; no read asks beyond one record and a
byte, and no more is accepted; nothing is read after a chunk without bytes; the body is
closed once if it can be; an error of reading is reported whatever `close` did; and a
result is one record, read to the end of the stream from a body that was closed. -/
theorem readBody_any_body (shape : Shape) (now : Readings) (source : Text) (maxPayloadBytes : Int)
    (trace : List Event) (r : Except PyError (Header × Bytes))
    (ran : Ran (readBody shape now source maxPayloadBytes) trace r) :
    (∀ other r', Ran (readBody shape now source maxPayloadBytes) other r' →
      (∀ event ∈ trace, event.Respects) → (∀ event ∈ other, event.Respects) →
      delivered trace = delivered other → trace.any Event.raised = other.any Event.raised →
      trace.any Event.closeFailed = other.any Event.closeFailed → r = r') ∧
    (Asks 0 (announced now source maxPayloadBytes (delivered trace)) trace ∧
      (delivered trace).length ≤ announced now source maxPayloadBytes (delivered trace)) ∧
    (∀ before event after, trace = before ++ event :: after → event.chunk = [] →
      ∀ other ∈ after, other.isClose = true) ∧
    trace.countP Event.isClose = (if shape.closable then 1 else 0) ∧
    (∀ e, shape.readable = true →
      parse now source maxPayloadBytes (fault trace) (delivered trace) = .error e → r = .error e) ∧
    (∀ header payload, r = .ok (header, payload) →
      IsRecord (decodeRecordHeader now · source maxPayloadBytes false) (delivered trace) header
        payload [] ∧
      (∃ before after, trace = before ++ .read 1 (.ok (.bytes [])) :: after ∧
        ∀ event ∈ after, event.isClose = true) ∧
      trace.any Event.closeFailed = false) := by
  refine ⟨fun other r' also => readBody_chunking ran also, ?_⟩
  cases readable : shape.readable with
  | false =>
    obtain ⟨once, all, rfl⟩ := Ran.unreadable readable ran
    refine ⟨⟨asks_closes all 0 _, ?_⟩, ?_, once, by simp, ?_⟩
    · rw [delivered_closes all]
      exact Nat.zero_le _
    · intro before event after same _ other later
      exact all other (by simp [same, later])
    · intro header payload wrong
      cases wrong
  | true =>
    obtain ⟨outcome, stops⟩ := readBody_outcome readable ran
    obtain ⟨reads, closes, result, rfl, reading, once, all, reported⟩ := Ran.readBody readable ran
    have bytes : delivered (reads ++ closes) = delivered reads := by
      rw [delivered_append, delivered_closes all, List.append_nil]
    refine ⟨?_, stops, ?_, ?_, ?_⟩
    · obtain ⟨asks, bound⟩ := reading.asks
      rw [bytes]
      exact ⟨asks.append (asks_closes all _ _), bound⟩
    · rw [List.countP_append, isClose_reads reading.reads, once, Nat.zero_add]
    · intro e _ parsed
      rw [outcome, parsed]
      rfl
    · intro header payload same
      rw [same] at reported
      obtain ⟨rfl, closed⟩ := report_ok reported.symm
      obtain ⟨record, before, rfl⟩ := reading.record
      refine ⟨by rwa [bytes], ⟨before, closes, by simp, all⟩, ?_⟩
      rw [List.any_append, closeFailed_reads reading.reads, closed]
      rfl

/-! ### The streaming body of the tier model -/

theorem Ran.seq {p : BodyProg α} {next : Except PyError α → BodyProg β}
    {first rest : List Event} {middle : Except PyError α} {r : Except PyError β}
    (begun : Ran p first middle) (ended : Ran (next middle) rest r) :
    Ran (p.thenDo next) (first ++ rest) r := by
  induction p generalizing first with
  | ret x =>
    obtain ⟨rfl, rfl⟩ := begun
    exact ended
  | act action k ih =>
    cases action with
    | read size | close =>
      obtain ⟨reply, later, rfl, goes⟩ := begun
      exact ⟨reply, later ++ rest, rfl, ih reply goes⟩

def CanEnd {α : Type} (p : BodyProg α) (r : Except PyError α) : Prop := ∃ trace, Ran p trace r

theorem CanEnd.bind {γ : Type} {p : BodyProg α} {x : Except PyError γ} {value : γ → α}
    {f : α → BodyProg β} {y : γ → Except PyError β} (first : CanEnd p (x.map value))
    (rest : ∀ c, x = .ok c → CanEnd (f (value c)) (y c)) : CanEnd (p >>= f) (x >>= y) := by
  obtain ⟨trace, ran⟩ := first
  cases x with
  | error e => exact ⟨trace ++ [], ran.seq ⟨rfl, rfl⟩⟩
  | ok c =>
    obtain ⟨later, goes⟩ := rest c rfl
    exact ⟨trace ++ later, ran.seq goes⟩

theorem CanEnd.ret (x : Except PyError α) : CanEnd (.ret x) x := ⟨[], rfl, rfl⟩

theorem canEnd_readChunk (size : Nat) (body : Body) :
    CanEnd (readChunk size) ((KV.readChunk size body).map Prod.fst) := by
  unfold KV.readChunk
  cases body.replies body.turn with
  | fails => exact ⟨_, .error readFailed, [], rfl, rfl, rfl⟩
  | notBytes => exact ⟨_, .ok .other, [], rfl, rfl, rfl⟩
  | tooMany =>
    refine ⟨_, .ok (.bytes (List.replicate (size + 1) 0)), [], rfl, ?_⟩
    change Ran (if size < (List.replicate (size + 1) (0 : UInt8)).length then raise ignoredSize
      else .ret (.ok _)) _ _
    rw [if_pos (by simp)]
    exact ⟨rfl, rfl⟩
  | chunk most =>
    refine ⟨_, .ok (.bytes (body.data.take (min size most))), [], rfl, ?_⟩
    change Ran (if size < (body.data.take (min size most)).length then raise ignoredSize
      else .ret (.ok _)) _ _
    rw [if_neg (by rw [List.length_take]; omega)]
    exact ⟨rfl, rfl⟩

theorem map_bind {γ : Type} (x : Except PyError α) (y : α → Except PyError β) (g : β → γ) :
    (x >>= y).map g = x >>= fun c => (y c).map g := by
  cases x <;> rfl

theorem canEnd_readRounds (truncated : PyError) (fuel remaining : Nat) (body : Body) :
    CanEnd (readRounds truncated fuel remaining)
      ((KV.readRounds truncated fuel remaining body).map Prod.fst) := by
  induction fuel generalizing remaining body with
  | zero =>
    cases remaining with
    | zero => exact .ret _
    | succ remaining => exact .ret _
  | succ fuel ih =>
    cases remaining with
    | zero => exact .ret _
    | succ remaining =>
      rw [readRounds, KV.readRounds, map_bind]
      refine CanEnd.bind (canEnd_readChunk (remaining + 1) body) ?_
      rintro ⟨chunk, left⟩ -
      by_cases empty : chunk.isEmpty = true
      · simp only [empty, if_true]
        exact .ret _
      · simp only [empty]
        change CanEnd _ (Except.map Prod.fst (KV.readRounds truncated fuel _ left >>= _))
        rw [map_bind]
        refine CanEnd.bind (ih _ left) ?_
        rintro ⟨chunks, last⟩ -
        exact .ret _

theorem canEnd_readExact (size : Nat) (truncated : PyError) (body : Body) :
    CanEnd (readExact size truncated) ((KV.readExact size truncated body).map Prod.fst) :=
  canEnd_readRounds truncated size size body

theorem canEnd_readRecord (now : Readings) (source : Text) (maxPayloadBytes : Int) (body : Body) :
    CanEnd (readRecord now source maxPayloadBytes)
      (readBodyRecord now source maxPayloadBytes body) := by
  unfold readRecord readBodyRecord
  refine CanEnd.bind (canEnd_readExact _ _ body) ?_
  rintro ⟨front, second⟩ -
  by_cases isMagic : front.take magic.length = magic
  swap
  · simp only [checkPrefix, Lib.require, isMagic, decide_false, Bool.false_eq_true, if_false]
    exact .ret _
  by_cases bounds : (0 < beNat (front.drop magic.length) &&
      beNat (front.drop magic.length) ≤ maxHeaderBytes) = true
  swap
  · simp only [checkPrefix, Lib.require, isMagic, decide_true, if_true, bounds]
    exact .ret _
  simp only [checkPrefix, Lib.require, isMagic, decide_true, if_true, bounds]
  change CanEnd (readExact (beNat (front.drop magic.length)) _ >>= _)
    (KV.readExact (beNat (front.drop magic.length)) _ second >>= _)
  refine CanEnd.bind (canEnd_readExact _ _ second) ?_
  rintro ⟨raw, third⟩ -
  cases decodeRecordHeader now raw source maxPayloadBytes false with
  | error e => exact .ret _
  | ok header =>
    change CanEnd (readExact (payloadSize header) _ >>= _)
      (KV.readExact (payloadSize header) _ third >>= _)
    refine CanEnd.bind (canEnd_readExact _ _ third) ?_
    rintro ⟨payload, fourth⟩ -
    refine CanEnd.bind (canEnd_readChunk 1 fourth) ?_
    rintro ⟨extra, last⟩ -
    by_cases empty : extra.isEmpty = true
    · simp only [empty, if_true]
      exact .ret _
    · simp only [empty]
      exact .ret _

/-- The tier model's body is one of the bodies considered here. -/
theorem canEnd_readBody (now : Readings) (source : Text) (maxPayloadBytes : Int) (body : Body) :
    CanEnd (readBody ⟨true, true⟩ now source maxPayloadBytes)
      (KV.readBody now source maxPayloadBytes body) := by
  obtain ⟨trace, ran⟩ := canEnd_readRecord now source maxPayloadBytes body
  let reply : Except PyError Unit := if body.closeFails then .error readFailed else .ok ()
  have closed : failed reply = body.closeFails := by
    cases h : body.closeFails <;> simp [reply, h, failed]
  have reported : report (failed reply) (readBodyRecord now source maxPayloadBytes body) =
      KV.readBody now source maxPayloadBytes body := by
    rw [closed, KV.readBody]
    cases readBodyRecord now source maxPayloadBytes body <;> rfl
  rw [← reported]
  refine ⟨(trace ++ []) ++ [.close reply], ?_⟩
  exact Ran.seq (ran.seq ⟨rfl, rfl⟩) ⟨reply, [], rfl, rfl, rfl⟩

def inPieces : Body where
  data := ((encodeRecordHeader (recordHeader none (List.replicate 64 (ch 'a')) 3 sampleMetadata)).map
    (encodeRecord · [1, 2, 3])).toOption.getD []
  replies _ := .chunk 5
  turn := 0
  closeFails := false

theorem readBody_any_body_pieces : ∃ header trace,
    Ran (readBody ⟨true, true⟩ ⟨.nan, .nan⟩ (text "b") 3) trace (.ok (header, [1, 2, 3])) ∧
    IsRecord (decodeRecordHeader ⟨.nan, .nan⟩ · (text "b") 3 false) (delivered trace) header [1, 2, 3] [] ∧
    trace.countP Event.isClose = 1 := by
  have outcome : (KV.readBody ⟨.nan, .nan⟩ (text "b") 3 inPieces).toOption.map Prod.snd =
      some [1, 2, 3] := by decide +kernel
  obtain ⟨⟨header, payload⟩, read, rfl⟩ := Option.map_eq_some_iff.mp outcome
  obtain ⟨trace, ran⟩ := canEnd_readBody ⟨.nan, .nan⟩ (text "b") 3 inPieces
  rw [toOption_eq_some.mp read] at ran
  obtain ⟨-, -, -, once, -, accepted⟩ := readBody_any_body ⟨true, true⟩ _ _ _ trace _ ran
  exact ⟨header, trace, ran, (accepted header _ rfl).1, once⟩

end AiStorage.KV.BodyReader
