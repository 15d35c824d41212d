import AiStorage.Lib.Runs
import Mathlib.Algebra.GroupWithZero.Nat
import Mathlib.Algebra.Order.BigOperators.Group.List

/-!
# Where the benchmark reads and writes

`run_worker` of `io_path_bench.cpp`: the offset of each iteration and what the engines do
there. The kernel answers each system call as it likes within the rules of a regular file, of
which only the length matters. The workers share the file, so a run is any sequence of
iterations.
-/
namespace AiStorage.IoProfile
open Lib

inductive Engine where
  | buffered
  | pread
  | vectored
  | odirect
  | mmap
  | other
  deriving DecidableEq

inductive Op where
  | read
  | write
  | other
  deriving DecidableEq

structure BenchConfig where
  engine : Engine
  op : Op
  fileSize : Nat
  blockSize : Nat
  iterations : Nat
  warmup : Nat
  threads : Nat
  /-- `access == "random"` -/
  random : Bool
  /-- `cache_policy == "coldish_fadvise_drop"` -/
  coldish : Bool

/-! ### System calls -/

/-- The answer to a call that moves bytes: how many at most, or an error that is
`EINTR` or another one. -/
inductive SysReply where
  | moved (n : Nat)
  | interrupted
  | failed
  deriving DecidableEq

inductive IoResult where
  | full (total : Nat)
  | endOfFile (total : Nat)
  | stopped (total : Nat)
  | failed
  | waiting
  deriving DecidableEq

/-- `read_full` after `lseek`, and `pread_full`: a call inside the file moves at least
one byte, a call at its end moves none. -/
def preadFull (length count offset : Nat) : List SysReply → Nat → IoResult
  | [], total =>
    if count ≤ total then .full total
    else if length ≤ offset + total then .endOfFile total
    else .waiting
  | reply :: rest, total =>
    if count ≤ total then .full total
    else if length ≤ offset + total then .endOfFile total
    else
      match reply with
      | .moved n =>
        let rc := max 1 (min n (min (count - total) (length - (offset + total))))
        preadFull length count offset rest (total + rc)
      | .interrupted => preadFull length count offset rest total
      | .failed => .failed

/-- `write_full` after `lseek`, and `pwrite_full`, with the length of the file: a call
that moves nothing is an error. -/
def pwriteFull (count offset : Nat) : List SysReply → Nat → Nat → IoResult × Nat
  | [], total, length => (if count ≤ total then .full total else .waiting, length)
  | reply :: rest, total, length =>
    if count ≤ total then (.full total, length)
    else
      match reply with
      | .moved n =>
        let rc := min n (count - total)
        if rc = 0 then (.failed, length)
        else pwriteFull count offset rest (total + rc) (max length (offset + total + rc))
      | .interrupted => pwriteFull count offset rest total length
      | .failed => (.failed, length)

def vectoredParts (blockSize : Nat) : List Nat :=
  (List.range 4).map fun index => blockSize / 4 + if index < blockSize % 4 then 1 else 0

def consume : Nat → List Nat → List Nat
  | _, [] => []
  | consumed, part :: rest =>
    if part ≤ consumed then consume (consumed - part) rest else (part - consumed) :: rest

/-- `positioned_iov_full`: a call that moves nothing ends the loop, for writes too. -/
def positionedIovFull (writeOp : Bool) (offset : Nat) :
    List SysReply → List Nat → Nat → Nat → IoResult × Nat
  | [], iov, total, length =>
    if iov = [] then (.full total, length)
    else if !writeOp && length ≤ offset + total then (.endOfFile total, length)
    else (.waiting, length)
  | reply :: rest, iov, total, length =>
    if iov = [] then (.full total, length)
    else if !writeOp && length ≤ offset + total then (.endOfFile total, length)
    else
      match reply with
      | .moved n =>
        if writeOp then
          let rc := min n iov.sum
          if rc = 0 then (.stopped total, length)
          else
            positionedIovFull writeOp offset rest (consume rc iov) (total + rc)
              (max length (offset + total + rc))
        else
          let rc := max 1 (min n (min iov.sum (length - (offset + total))))
          positionedIovFull writeOp offset rest (consume rc iov) (total + rc) length
      | .interrupted => positionedIovFull writeOp offset rest iov total length
      | .failed => (.failed, length)

/-! ### One iteration -/

structure Access where
  thread : Nat
  i : Nat
  draw : Nat
  adviseFails : Bool := false
  mapped : Bool := true
  replies : List SysReply := []

namespace BenchConfig

variable (cfg : BenchConfig)

def maxBlockIndex : Nat :=
  if cfg.blockSize ≥ cfg.fileSize then 0 else (cfg.fileSize - cfg.blockSize) / cfg.blockSize

def blockCount : Nat := max 1 (cfg.fileSize / cfg.blockSize)

def offset (a : Access) : Nat :=
  let blockIndex :=
    if cfg.random then a.draw
    else (a.thread * (cfg.warmup + cfg.iterations) + a.i) % cfg.blockCount
  blockIndex * cfg.blockSize

inductive Outcome where
  | moved (result : IoResult)
  | scanned (first count : Nat)
  | error
  deriving DecidableEq

def positionedFull (a : Access) (length : Nat) : IoResult × Nat :=
  if cfg.op = .write then pwriteFull cfg.blockSize (cfg.offset a) a.replies 0 length
  else (preadFull length cfg.blockSize (cfg.offset a) a.replies 0, length)

def iteration (a : Access) (length : Nat) : Outcome × Nat :=
  if cfg.coldish && a.adviseFails then (.error, length)
  else
    match cfg.engine with
    | .buffered | .pread | .odirect =>
      let result := cfg.positionedFull a length
      (.moved result.1, result.2)
    | .vectored =>
      let result := positionedIovFull (cfg.op = .write) (cfg.offset a) a.replies
        (vectoredParts cfg.blockSize) 0 length
      (.moved result.1, result.2)
    | .mmap =>
      if cfg.op = .read && a.mapped then (.scanned (cfg.offset a) cfg.blockSize, length)
      else (.error, length)
    | .other => (.error, length)

structure Valid (a : Access) : Prop where
  thread : a.thread < cfg.threads
  i : a.i < cfg.warmup + cfg.iterations
  draw : a.draw ≤ cfg.maxBlockIndex

end BenchConfig

/-! ### Calls inside the file -/

section Calls

variable {length count offset : Nat}

theorem preadFull_inside (inside : offset + count ≤ length) (replies : List SysReply) :
    ∀ total ≤ count, ∀ seen, preadFull length count offset replies total ≠ .endOfFile seen := by
  induction replies with
  | nil =>
    intro total bound seen ended
    rw [preadFull] at ended
    split_ifs at ended
    omega
  | cons reply rest later =>
    intro total bound seen ended
    cases reply with
    | moved n =>
      rw [preadFull] at ended
      split_ifs at ended
      · omega
      · exact later _ (by omega) seen ended
    | interrupted =>
      rw [preadFull] at ended
      split_ifs at ended
      · omega
      · exact later total bound seen ended
    | failed =>
      rw [preadFull] at ended
      split_ifs at ended
      omega

structure Stays (length : Nat) (result : IoResult × Nat) : Prop where
  length : result.2 = length
  notEnded : ∀ seen, result.1 ≠ .endOfFile seen

theorem stays_of_ne {result : IoResult} (other : ∀ seen, result ≠ .endOfFile seen) :
    Stays length (result, length) := ⟨rfl, other⟩

theorem pwriteFull_inside (inside : offset + count ≤ length) (replies : List SysReply) :
    ∀ total ≤ count, Stays length (pwriteFull count offset replies total length) := by
  induction replies with
  | nil =>
    intro total bound
    rw [pwriteFull]
    split_ifs
    · exact stays_of_ne fun _ wrong => by cases wrong
    · exact stays_of_ne fun _ wrong => by cases wrong
  | cons reply rest later =>
    intro total bound
    cases reply with
    | moved n =>
      rw [pwriteFull]
      simp only
      split_ifs
      · exact stays_of_ne fun _ wrong => by cases wrong
      · exact stays_of_ne fun _ wrong => by cases wrong
      · rw [max_eq_left (by omega)]
        exact later _ (by omega)
    | interrupted =>
      rw [pwriteFull]
      split_ifs
      · exact stays_of_ne fun _ wrong => by cases wrong
      · exact later total bound
    | failed =>
      rw [pwriteFull]
      split_ifs
      · exact stays_of_ne fun _ wrong => by cases wrong
      · exact stays_of_ne fun _ wrong => by cases wrong

theorem sum_consume (iov : List Nat) : ∀ n ≤ iov.sum, (consume n iov).sum = iov.sum - n := by
  induction iov with
  | nil =>
    intro n _
    simp [consume]
  | cons part rest later =>
    intro n bound
    rw [List.sum_cons] at bound
    rw [consume, List.sum_cons]
    split_ifs with whole
    · rw [later _ (by omega)]
      omega
    · rw [List.sum_cons]
      omega

theorem sum_vectoredParts (blockSize : Nat) : (vectoredParts blockSize).sum = blockSize := by
  have parts : vectoredParts blockSize =
      [blockSize / 4 + if 0 < blockSize % 4 then 1 else 0,
        blockSize / 4 + if 1 < blockSize % 4 then 1 else 0,
        blockSize / 4 + if 2 < blockSize % 4 then 1 else 0,
        blockSize / 4 + if 3 < blockSize % 4 then 1 else 0] := rfl
  rw [parts]
  simp only [List.sum_cons, List.sum_nil]
  split_ifs <;> omega

theorem head_vectoredParts {blockSize : Nat} (positive : 0 < blockSize) :
    ∀ part ∈ (vectoredParts blockSize).head?, 0 < part := by
  intro part member
  have parts : (vectoredParts blockSize).head? =
      some (blockSize / 4 + if 0 < blockSize % 4 then 1 else 0) := rfl
  have first := parts ▸ member
  rw [Option.mem_some_iff] at first
  split_ifs at first
  · omega
  · omega

theorem head_consume (iov : List Nat) : ∀ n, ∀ part ∈ (consume n iov).head?, 0 < part := by
  induction iov with
  | nil =>
    intro n part member
    cases member
  | cons first rest later =>
    intro n part member
    rw [consume] at member
    split_ifs at member with whole
    · exact later _ part member
    · have same : first - n = part := by simpa using member
      omega

theorem sum_pos_of_head {iov : List Nat} (some : iov ≠ [])
    (room : ∀ part ∈ iov.head?, 0 < part) : 0 < iov.sum := by
  cases iov with
  | nil => exact absurd rfl some
  | cons first rest =>
    have positive := room first rfl
    rw [List.sum_cons]
    omega

theorem positionedIovFull_inside (writeOp : Bool) (inside : offset + count ≤ length)
    (replies : List SysReply) : ∀ iov total, total + iov.sum = count →
      (∀ part ∈ iov.head?, 0 < part) →
      Stays length (positionedIovFull writeOp offset replies iov total length) := by
  have ends : ∀ iov total, total + iov.sum = count → (∀ part ∈ iov.head?, 0 < part) → iov ≠ [] →
      ¬ (!writeOp && decide (length ≤ offset + total)) = true := by
    intro iov total whole room left
    have rest := sum_pos_of_head left room
    simp only [Bool.and_eq_true, decide_eq_true_eq, not_and]
    omega
  induction replies with
  | nil =>
    intro iov total whole room
    by_cases done : iov = []
    · rw [positionedIovFull, if_pos done]
      exact ⟨rfl, fun _ wrong => by cases wrong⟩
    · rw [positionedIovFull, if_neg done, if_neg (ends iov total whole room done)]
      exact ⟨rfl, fun _ wrong => by cases wrong⟩
  | cons reply rest later =>
    intro iov total whole room
    by_cases done : iov = []
    · have full : positionedIovFull writeOp offset (reply :: rest) iov total length =
          (.full total, length) := by
        cases reply <;> rw [positionedIovFull, if_pos done]
      rw [full]
      exact ⟨rfl, fun _ wrong => by cases wrong⟩
    · have more := ends iov total whole room done
      have left := sum_pos_of_head done room
      cases reply with
      | moved n =>
        rw [positionedIovFull, if_neg done, if_neg more]
        cases writeOp with
        | true =>
          simp only [if_true]
          split_ifs with none
          · exact ⟨rfl, fun _ wrong => by cases wrong⟩
          · rw [max_eq_left (by omega)]
            apply later _ _ _ (head_consume iov _)
            rw [sum_consume iov _ (min_le_right _ _)]
            omega
        | false =>
          have room : length - (offset + total) ≠ 0 := by
            simp only [Bool.not_false, Bool.true_and, decide_eq_true_eq] at more
            omega
          simp only [Bool.false_eq_true, if_false]
          apply later _ _ _ (head_consume iov _)
          rw [sum_consume iov _ (by omega)]
          omega
      | interrupted =>
        rw [positionedIovFull, if_neg done, if_neg more]
        exact later iov total whole room
      | failed =>
        rw [positionedIovFull, if_neg done, if_neg more]
        exact ⟨rfl, fun _ wrong => by cases wrong⟩

end Calls

/-! ### Iterations inside the file -/

namespace BenchConfig

variable {cfg : BenchConfig} {a : Access}

/-- Both access modes choose a whole block of the file once it has one. -/
theorem offset_inside (positive : 0 < cfg.blockSize) (fits : cfg.blockSize ≤ cfg.fileSize)
    (valid : cfg.Valid a) : cfg.offset a + cfg.blockSize ≤ cfg.fileSize := by
  have draw := valid.draw
  rw [offset]
  cases cfg.random with
  | true =>
    rw [maxBlockIndex] at draw
    simp only [if_true]
    split_ifs at draw with whole
    · rw [Nat.le_zero.mp draw]
      omega
    · have blocks := (Nat.le_div_iff_mul_le positive).mp draw
      omega
  | false =>
    have some : 1 ≤ cfg.fileSize / cfg.blockSize := (Nat.le_div_iff_mul_le positive).mpr (by omega)
    have below : (a.thread * (cfg.warmup + cfg.iterations) + a.i) % cfg.blockCount <
        cfg.fileSize / cfg.blockSize := by
      have mod := Nat.mod_lt (a.thread * (cfg.warmup + cfg.iterations) + a.i)
        (show 0 < cfg.blockCount from Nat.lt_of_lt_of_le Nat.one_pos (le_max_left 1 _))
      rwa [blockCount, max_eq_right some] at mod ⊢
    have blocks := (Nat.le_div_iff_mul_le positive).mp (Nat.succ_le_of_lt below)
    rw [Nat.succ_mul] at blocks
    exact blocks

/-- No end of file was met, and the mapping of `fileSize` bytes was scanned inside. -/
def Outcome.Inside (fileSize : Nat) : Outcome → Prop
  | .moved result => ∀ seen, result ≠ .endOfFile seen
  | .scanned first count => first + count ≤ fileSize
  | .error => True

theorem positionedFull_inside {length : Nat} (reach : cfg.offset a + cfg.blockSize ≤ length) :
    Stays length (cfg.positionedFull a length) := by
  rw [positionedFull]
  split_ifs
  · exact pwriteFull_inside reach a.replies 0 (Nat.zero_le _)
  · exact stays_of_ne (preadFull_inside reach a.replies 0 (Nat.zero_le _))

theorem iteration_inside (positive : 0 < cfg.blockSize) (fits : cfg.blockSize ≤ cfg.fileSize)
    (valid : cfg.Valid a) {length : Nat} (long : cfg.fileSize ≤ length) :
    (cfg.iteration a length).2 = length ∧ (cfg.iteration a length).1.Inside cfg.fileSize := by
  have inside := offset_inside positive fits valid
  have reach : cfg.offset a + cfg.blockSize ≤ length := inside.trans long
  have moved : ∀ result, Stays length result →
      result.2 = length ∧ (Outcome.moved result.1).Inside cfg.fileSize :=
    fun result stays => ⟨stays.length, stays.notEnded⟩
  by_cases refused : (cfg.coldish && a.adviseFails) = true
  · rw [iteration, if_pos refused]
    exact ⟨rfl, trivial⟩
  · rw [iteration, if_neg refused]
    cases cfg.engine with
    | buffered | pread | odirect => exact moved _ (positionedFull_inside reach)
    | vectored =>
      apply moved
      apply positionedIovFull_inside _ reach
      · rw [sum_vectoredParts, Nat.zero_add]
      · exact head_vectoredParts positive
    | mmap =>
      by_cases scans : (cfg.op = .read && a.mapped) = true
      · rw [if_pos scans]
        exact ⟨rfl, inside⟩
      · rw [if_neg scans]
        exact ⟨rfl, trivial⟩
    | other => exact ⟨rfl, trivial⟩

/-! ### Whole runs -/

/-- With a block no larger than the file every access lies inside, no engine meets the end
of the file, and no write grows it; with a larger block no access lies inside. -/
theorem accesses_inside_iff (cfg : BenchConfig) (block : 0 < cfg.blockSize)
    (worker : 0 < cfg.threads) (turn : 0 < cfg.warmup + cfg.iterations) :
    ((∀ a, cfg.Valid a → cfg.offset a + cfg.blockSize ≤ cfg.fileSize) ↔
      cfg.blockSize ≤ cfg.fileSize) ∧
    (cfg.blockSize ≤ cfg.fileSize → ∀ length, cfg.fileSize ≤ length → ∀ schedule,
      (∀ a ∈ schedule, cfg.Valid a) →
      run (fun length a => (cfg.iteration a length).2) length schedule = length ∧
        ∀ a ∈ schedule, (cfg.iteration a length).1.Inside cfg.fileSize) := by
  constructor
  · constructor
    · intro inside
      by_contra large
      have first : cfg.Valid { thread := 0, i := 0, draw := 0 } := ⟨worker, turn, Nat.zero_le _⟩
      have reached := inside _ first
      omega
    · intro fits a valid
      exact offset_inside block fits valid
  · intro fits length long schedule valid
    constructor
    · induction schedule with
      | nil => rfl
      | cons a rest later =>
        rw [run_cons, (iteration_inside block fits (valid a List.mem_cons_self) long).1]
        exact later fun b member => valid b (List.mem_cons_of_mem a member)
    · intro a member
      exact (iteration_inside block fits (valid a member) long).2

def oneMegabyte (engine : Engine) (op : Op) (blockSizeKb : Nat) : BenchConfig where
  engine := engine
  op := op
  fileSize := 1024 * 1024
  blockSize := blockSizeKb * 1024
  iterations := 1
  warmup := 0
  threads := 1
  random := false
  coldish := false

def quarters : BenchConfig :=
  { oneMegabyte .pread .write 256 with threads := 3, iterations := 5, warmup := 1 }

def twoTurns : List Access :=
  [{ thread := 2, i := 3, draw := 0, replies := [.interrupted, .moved 100, .moved 262144] },
    { thread := 0, i := 5, draw := 0, replies := [.moved 262144] }]

theorem accesses_inside_quarters :
    twoTurns.map quarters.offset = [786432, 262144] ∧
    (∀ a ∈ twoTurns, quarters.offset a + 262144 ≤ 1048576) ∧
    run (fun length a => (quarters.iteration a length).2) 1048576 twoTurns = 1048576 ∧
    ∀ a ∈ twoTurns, (quarters.iteration a 1048576).1.Inside 1048576 := by
  have inside := accesses_inside_iff quarters (by decide) (by decide) (by decide)
  have valid : ∀ a ∈ twoTurns, quarters.Valid a := by
    simp only [twoTurns, List.forall_mem_cons, List.not_mem_nil, false_imp_iff, implies_true, and_true]
    exact ⟨⟨by decide, by decide, by decide⟩, ⟨by decide, by decide, by decide⟩⟩
  exact ⟨by decide, fun a member => inside.1.mpr (by decide) a (valid a member),
    inside.2 (by decide) 1048576 (by decide) twoTurns valid⟩

/-- With a block of two megabytes and a file of one, `pread` meets the end of the file,
`pwrite` doubles the file and the scan of the mapping leaves it. -/
theorem large_block_leaves_file :
    (oneMegabyte .pread .read 2048).iteration
        { thread := 0, i := 0, draw := 0, replies := [.moved 2097152] } 1048576 =
      (.moved (.endOfFile 1048576), 1048576) ∧
    (oneMegabyte .pread .write 2048).iteration
        { thread := 0, i := 0, draw := 0, replies := [.moved 2097152] } 1048576 =
      (.moved (.full 2097152), 2097152) ∧
    (oneMegabyte .mmap .read 2048).iteration { thread := 0, i := 0, draw := 0 } 1048576 =
      (.scanned 0 2097152, 1048576) := by
  decide +kernel

end BenchConfig

end AiStorage.IoProfile
