import AiStorage.IoProfile.Accesses
import AiStorage.Lib.Bytes

/-!
# Vectored reads

`pread_full` and `positioned_iov_full` of `io_path_bench.cpp`, reading, with the bytes they
move. A call that can move a byte moves at least one; the answer says how many. Whatever the
answers, both loops fill the places of the buffers, in order, with the bytes of the file.
-/
namespace AiStorage.IoProfile.Contents
open Lib

structure Iovec where
  base : Nat
  len : Nat

abbrev Memory := Nat → UInt8

def places (iov : List Iovec) : List Nat := iov.flatMap fun v => List.range' v.base v.len

/-- Destination buffers do not overlap. -/
structure Buffers where
  iov : List Iovec
  apart : (places iov).Nodup

def fill (memory : Memory) : List Nat → Bytes → Memory
  | place :: rest, byte :: bytes => fill (Function.update memory place byte) rest bytes
  | _, _ => memory

def moves (file : Bytes) (wanted position n : Nat) : Nat :=
  min (max 1 n) (min wanted (file.length - position))

def transfer (file : Bytes) (memory : Memory) (places : List Nat) (position rc : Nat) : Memory :=
  fill memory places ((file.drop position).take rc)

def preadFull (file : Bytes) (buffer count offset : Nat) :
    List SysReply → Nat → Memory → Option (Int × Memory)
  | [], total, memory => if total < count then none else some (total, memory)
  | reply :: replies, total, memory =>
    if total < count then
      match reply with
      | .moved n =>
        let rc := moves file (count - total) (offset + total) n
        if rc > 0 then
          preadFull file buffer count offset replies (total + rc)
            (transfer file memory (List.range' (buffer + total) (count - total)) (offset + total)
              rc)
        else some (total, memory)
      | .interrupted => preadFull file buffer count offset replies total memory
      | .failed => some (-1, memory)
    else some (total, memory)

/-- The vector from the first buffer that is not full, without its filled part. -/
def advance : Nat → List Iovec → List Iovec
  | _, [] => []
  | consumed, v :: rest =>
    if consumed ≥ v.len then advance (consumed - v.len) rest
    else if consumed > 0 then ⟨v.base + consumed, v.len - consumed⟩ :: rest
    else v :: rest

def positionedIovFull (file : Bytes) (offset : Nat) :
    List SysReply → List Iovec → Nat → Memory → Option (Int × Memory)
  | [], iov, total, memory => if iov = [] then some (total, memory) else none
  | reply :: replies, iov, total, memory =>
    if iov = [] then some (total, memory)
    else
      match reply with
      | .interrupted => positionedIovFull file offset replies iov total memory
      | .failed => some (-1, memory)
      | .moved n =>
        let rc := moves file (places iov).length (offset + total) n
        if rc = 0 then some (total, memory)
        else
          positionedIovFull file offset replies (advance rc iov) (total + rc)
            (transfer file memory (places iov) (offset + total) rc)

/-! ## Filling -/

theorem fill_nil (memory : Memory) (places : List Nat) : fill memory places [] = memory := by
  cases places <;> rfl

theorem fill_append (memory : Memory) (places : List Nat) (front rest : Bytes) :
    fill (fill memory places front) (places.drop front.length) rest =
      fill memory places (front ++ rest) := by
  induction front generalizing memory places with
  | nil => rw [fill_nil]; rfl
  | cons byte front ih =>
    cases places with
    | nil => rfl
    | cons place places => exact ih (Function.update memory place byte) places

theorem fill_outside {memory : Memory} {places : List Nat} {bytes : Bytes} {address : Nat}
    (outside : address ∉ places.take bytes.length) :
    fill memory places bytes address = memory address := by
  induction bytes generalizing memory places with
  | nil => rw [fill_nil]
  | cons byte bytes ih =>
    cases places with
    | nil => rfl
    | cons place places =>
      rw [List.length_cons, List.take_succ_cons, List.mem_cons, not_or] at outside
      rw [fill, ih outside.2, Function.update_of_ne outside.1]

theorem fill_inside {memory : Memory} {places : List Nat} (apart : places.Nodup) {bytes : Bytes}
    {i place : Nat} {byte : UInt8} (here : places[i]? = some place)
    (there : bytes[i]? = some byte) :
    fill memory places bytes place = byte := by
  induction bytes generalizing memory places i with
  | nil => cases there
  | cons first bytes ih =>
    cases places with
    | nil => cases here
    | cons own places =>
      obtain ⟨new, apart⟩ := List.nodup_cons.mp apart
      cases i with
      | succ i => exact ih apart here there
      | zero =>
        cases here
        cases there
        rw [fill, fill_outside fun member => new (List.mem_of_mem_take member),
          Function.update_self]

theorem places_advance (consumed : Nat) (iov : List Iovec) :
    places (advance consumed iov) = (places iov).drop consumed := by
  induction iov generalizing consumed with
  | nil => simp [advance, places]
  | cons v rest ih =>
    have split : places (v :: rest) = List.range' v.base v.len ++ places rest := List.flatMap_cons
    rw [split, List.drop_append, List.length_range', List.drop_range', advance]
    split_ifs with past part
    · rw [ih, Nat.sub_eq_zero_of_le past]
      rfl
    · rw [Nat.sub_eq_zero_of_le (not_le.mp past).le, mul_one]
      rfl
    · obtain rfl : consumed = 0 := by omega
      rw [split]
      simp

/-! ## The loops -/

/-- What is left to do from a position: the bytes that are there go to the places. -/
def outcome (file : Bytes) (position : Nat) (places : List Nat) (total : Nat) (memory : Memory) :
    Option (Int × Memory) :=
  let bytes := (file.drop position).take places.length
  some (((total + bytes.length : Nat) : Int), fill memory places bytes)

section Loops

variable {file : Bytes} {position total : Nat} {spots : List Nat} (memory : Memory)

theorem outcome_done (none : min spots.length (file.length - position) = 0) :
    outcome file position spots total memory = some ((total : Int), memory) := by
  have bytes : (file.drop position).take spots.length = [] := by
    apply List.eq_nil_of_length_eq_zero
    rw [List.length_take, List.length_drop]
    exact none
  rw [outcome, bytes, fill_nil]
  rfl

theorem outcome_step {rc : Nat} (some : rc ≤ min spots.length (file.length - position)) :
    outcome file (position + rc) (spots.drop rc) (total + rc)
        (transfer file memory spots position rc) =
      outcome file position spots total memory := by
  have front : ((file.drop position).take rc).length = rc := by
    rw [List.length_take, List.length_drop]
    omega
  have split : (file.drop position).take rc ++
      (file.drop (position + rc)).take (spots.drop rc).length =
        (file.drop position).take spots.length := by
    rw [List.length_drop, ← List.drop_drop, ← List.take_add]
    congr 1
    omega
  have filled := fill_append memory spots ((file.drop position).take rc)
    ((file.drop (position + rc)).take (spots.drop rc).length)
  rw [front] at filled
  rw [outcome, outcome, transfer, filled, split, ← split, List.length_append, front, Nat.add_assoc]

theorem positionedIovFull_done {offset : Nat} {replies : List SysReply} {iov : List Iovec}
    (sound : .failed ∉ replies)
    (enough : min (places iov).length (file.length - (offset + total)) <
      replies.countP (· ≠ .interrupted)) :
    positionedIovFull file offset replies iov total memory =
      outcome file (offset + total) (places iov) total memory := by
  induction replies generalizing iov total memory with
  | nil => cases enough
  | cons reply replies ih =>
    rw [List.mem_cons, not_or] at sound
    unfold positionedIovFull
    split_ifs with none
    · rw [outcome_done memory (by rw [none]; exact Nat.zero_min _)]
    · cases reply with
      | failed => exact absurd rfl sound.1
      | interrupted => exact ih memory sound.2 enough
      | moved n =>
        rw [List.countP_cons_of_pos (by simp)] at enough
        have most : moves file (places iov).length (offset + total) n ≤
          min (places iov).length (file.length - (offset + total)) := min_le_right _ _
        dsimp only
        split_ifs with ends
        · rw [outcome_done memory (by unfold moves at ends; omega)]
        · rw [ih _ sound.2, places_advance, ← Nat.add_assoc, outcome_step memory most]
          rw [places_advance, List.length_drop]
          omega

theorem preadFull_done (buffer : Nat) {count offset : Nat} {replies : List SysReply}
    (sound : .failed ∉ replies)
    (enough : min (count - total) (file.length - (offset + total)) <
      replies.countP (· ≠ .interrupted)) :
    preadFull file buffer count offset replies total memory =
      outcome file (offset + total) (List.range' (buffer + total) (count - total)) total
        memory := by
  induction replies generalizing total memory with
  | nil => cases enough
  | cons reply replies ih =>
    rw [List.mem_cons, not_or] at sound
    have wanted : (List.range' (buffer + total) (count - total)).length = count - total :=
      List.length_range'
    unfold preadFull
    split_ifs with more
    · cases reply with
      | failed => exact absurd rfl sound.1
      | interrupted => exact ih memory sound.2 enough
      | moved n =>
        rw [List.countP_cons_of_pos (by simp)] at enough
        have most : moves file (count - total) (offset + total) n ≤
          min (count - total) (file.length - (offset + total)) := min_le_right _ _
        dsimp only
        split_ifs with some
        · rw [ih _ sound.2 (by omega), ← Nat.add_assoc, ← Nat.add_assoc, ← Nat.sub_sub]
          have step := @outcome_step file _ total _ memory _ (wanted.symm ▸ most)
          rw [List.drop_range', mul_one, wanted] at step
          exact step
        · rw [outcome_done memory (by unfold moves at some; rw [wanted]; omega)]
    · rw [outcome_done memory (by rw [wanted]; omega)]

end Loops

/-- Answers without end: no error but `EINTR`, and that not for ever. -/
structure Schedule where
  reply : Nat → SysReply
  sound : ∀ k, reply k ≠ .failed
  answers : ∀ k, ∃ j ≥ k, reply j ≠ .interrupted

namespace Schedule

variable (calls : Schedule)

def first (n : Nat) : List SysReply := (List.range n).map calls.reply

theorem failed_notMem (n : Nat) : .failed ∉ calls.first n := by
  intro member
  obtain ⟨k, -, same⟩ := List.mem_map.mp member
  exact calls.sound k same

theorem answered_mono {m n : Nat} (le : m ≤ n) :
    (calls.first m).countP (· ≠ .interrupted) ≤ (calls.first n).countP (· ≠ .interrupted) :=
  ((List.range_sublist.mpr le).map _).countP_le

theorem exists_answered (most : Nat) : ∃ n, most < (calls.first n).countP (· ≠ .interrupted) := by
  induction most with
  | zero =>
    obtain ⟨j, -, answer⟩ := calls.answers 0
    use j + 1
    apply List.countP_pos_iff.mpr
    exact ⟨_, List.mem_map.mpr ⟨j, List.self_mem_range_succ, rfl⟩, decide_eq_true answer⟩
  | succ most ih =>
    obtain ⟨n, more⟩ := ih
    obtain ⟨j, later, answer⟩ := calls.answers n
    have grown := calls.answered_mono later
    refine ⟨j + 1, ?_⟩
    rw [first, List.range_succ, List.map_append, List.countP_append]
    have last : [calls.reply j].countP (· ≠ .interrupted) = 1 := by simp [answer]
    change most + 1 < (calls.first j).countP _ + [calls.reply j].countP _
    omega

end Schedule

/-- With any answers, reading into the buffers ends with the total of one plain read of their
combined length, byte `i` of the file range stands at place `i` of the buffers, and no other
address is written. -/
theorem vectored_read_is_plain (file : Bytes) (offset : Nat) (buffers : Buffers)
    (memory plain : Memory) (buffer : Nat) (calls plainCalls : Schedule) :
    ∃ rounds, ∀ more ≥ rounds, ∃ (total : Nat) (memory' plain' : Memory),
      positionedIovFull file offset (calls.first more) buffers.iov 0 memory =
        some ((total : Int), memory') ∧
      preadFull file buffer (places buffers.iov).length offset (plainCalls.first more) 0 plain =
        some ((total : Int), plain') ∧
      (∀ i < total, ∃ place byte, (places buffers.iov)[i]? = some place ∧
        file[offset + i]? = some byte ∧ memory' place = byte ∧ plain' (buffer + i) = byte) ∧
      ∀ address, address ∉ (places buffers.iov).take total → memory' address = memory address := by
  obtain ⟨m, enough⟩ := calls.exists_answered
    (min (places buffers.iov).length (file.length - (offset + 0)))
  obtain ⟨n, enough'⟩ := plainCalls.exists_answered
    (min ((places buffers.iov).length - 0) (file.length - (offset + 0)))
  use max m n
  intro more late
  have read := positionedIovFull_done memory (calls.failed_notMem more)
    (enough.trans_le (calls.answered_mono ((le_max_left m n).trans late)))
  have plainRead := preadFull_done plain buffer (plainCalls.failed_notMem more)
    (enough'.trans_le (plainCalls.answered_mono ((le_max_right m n).trans late)))
  rw [outcome, Nat.zero_add] at read plainRead
  rw [List.length_range', Nat.sub_zero] at plainRead
  refine ⟨_, _, _, read, plainRead, ?_, fun address outside => fill_outside outside⟩
  intro i inside
  rw [List.length_take, List.length_drop] at inside
  have here : i < (places buffers.iov).length := by omega
  have there : offset + i < file.length := by omega
  have byte : ((file.drop (offset + 0)).take (places buffers.iov).length)[i]? =
      some file[offset + i] := by
    rw [List.getElem?_take_of_lt here, List.getElem?_drop, Nat.add_zero,
      List.getElem?_eq_getElem there]
  have spot : (List.range' (buffer + 0) (places buffers.iov).length)[i]? = some (buffer + i) := by
    rw [List.getElem?_range' here, Nat.add_zero, Nat.one_mul]
  exact ⟨_, _, List.getElem?_eq_getElem here, List.getElem?_eq_getElem there,
    fill_inside buffers.apart (List.getElem?_eq_getElem here) byte,
    fill_inside List.nodup_range' spot byte⟩

def threeBuffers : Buffers := ⟨[⟨100, 2⟩, ⟨50, 0⟩, ⟨200, 3⟩], by decide⟩

/-- Every other call is interrupted, and the others move at most two bytes. -/
def shortReads : Schedule where
  reply k := if k % 2 = 0 then .interrupted else .moved 2
  sound k := by split_ifs <;> decide
  answers k := ⟨2 * k + 1, by omega, by simp [Nat.add_mod]⟩

theorem vectored_read_is_plain_three :
    ((positionedIovFull [1, 2, 3, 4, 5, 6, 7] 1 (shortReads.first 6) threeBuffers.iov 0 fun _ => 0).map
      fun done => (done.1, (places threeBuffers.iov).map done.2)) = some (5, [2, 3, 4, 5, 6]) ∧
    ∃ rounds, ∀ more ≥ rounds, ∃ (total : Nat) (memory plain : Memory),
      positionedIovFull [1, 2, 3, 4, 5, 6, 7] 1 (shortReads.first more) threeBuffers.iov 0
        (fun _ => 0) = some ((total : Int), memory) ∧
      preadFull [1, 2, 3, 4, 5, 6, 7] 300 5 1 (shortReads.first more) 0 (fun _ => 0) =
        some ((total : Int), plain) ∧
      ∀ i < total, ∃ place, (places threeBuffers.iov)[i]? = some place ∧
        memory place = plain (300 + i) := by
  refine ⟨by decide, ?_⟩
  obtain ⟨rounds, reads⟩ := vectored_read_is_plain [1, 2, 3, 4, 5, 6, 7] 1 threeBuffers (fun _ => 0)
    (fun _ => 0) 300 shortReads shortReads
  refine ⟨rounds, fun more late => ?_⟩
  obtain ⟨total, memory, plain, vectored, single, bytes, -⟩ := reads more late
  refine ⟨total, memory, plain, vectored, single, fun i inside => ?_⟩
  obtain ⟨place, byte, here, -, left, right⟩ := bytes i inside
  exact ⟨place, here, left.trans right.symm⟩

end AiStorage.IoProfile.Contents
