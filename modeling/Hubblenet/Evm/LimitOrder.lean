import Mathlib

/-!
# Catching up on start-up: `limitOrderProcesser.ListenAndProcessTransactions`

Before it listens for new blocks, the processor replays the logs of every accepted block into the order book. It
starts at block `0`, or after the block of the snapshot it loaded (`startBlock`), and walks to the last accepted
block in chunks: each pass processes `[fromBlock, toBlock]` with `toBlock = min(lastAccepted, fromBlock + JUMP)`,
then moves `fromBlock` past `toBlock`, and the loop runs while `toBlock > fromBlock` (`syncRanges`).

A chunk holds at most `JUMP + 1 = 4000` blocks, and the strict comparison ends the walk one block early whenever
the blocks left form a chunk of one: the blocks processed are `[fromBlock, lastAccepted]` when
`lastAccepted - fromBlock` is not a multiple of `4000`, and `[fromBlock, lastAccepted - 1]` when it is
(`blocks_syncRanges`). The last accepted block is then never replayed (`listenRanges_skips_lastAccepted`).
-/

namespace Hubblenet.LimitOrderProcesser

/-- `JUMP`: a chunk ends `JUMP` blocks after the block it starts at. -/
def JUMP : Nat := 3999

/-- The loop of `ListenAndProcessTransactions` from `fromBlock`: the ranges `[fromBlock, toBlock]` it hands to
`getLogs`, `ProcessEvents`, `ProcessAcceptedEvents` and `Accept`, in order. -/
def syncRanges (lastAccepted fromBlock : Nat) : List (Nat × Nat) :=
  let toBlock := min lastAccepted (fromBlock + JUMP)
  if fromBlock < toBlock then (fromBlock, toBlock) :: syncRanges lastAccepted (toBlock + 1) else []
termination_by lastAccepted - fromBlock
decreasing_by omega

/-- The block the loop starts at: after a snapshot accepted at block `x > 0`, `x + 1`; otherwise `0`. An error in
loading the snapshot is only logged. -/
def startBlock (loadFromSnapshotEnabled : Bool) (loadMemoryDBSnapshot : Except String Nat) : Nat :=
  if loadFromSnapshotEnabled then
    match loadMemoryDBSnapshot with
    | .ok acceptedBlockNumber => if 0 < acceptedBlockNumber then acceptedBlockNumber + 1 else 0
    | .error _ => 0
  else 0

/-- The ranges `ListenAndProcessTransactions` replays before it listens; nothing while no block is accepted. -/
def listenRanges (lastAccepted : Nat) (loadFromSnapshotEnabled : Bool) (loadMemoryDBSnapshot : Except String Nat) :
    List (Nat × Nat) :=
  if 0 < lastAccepted then syncRanges lastAccepted (startBlock loadFromSnapshotEnabled loadMemoryDBSnapshot) else []

/-- The blocks of a range `[fromBlock, toBlock]`. -/
def rangeBlocks (r : Nat × Nat) : List Nat := List.range' r.1 (r.2 + 1 - r.1)

section Ranges

variable {lastAccepted fromBlock : Nat}

/-- A pass that runs processes up to `fromBlock + JUMP`, and at least two blocks. -/
theorem syncRanges_of_lt (h : fromBlock < min lastAccepted (fromBlock + JUMP)) :
    syncRanges lastAccepted fromBlock = (fromBlock, min lastAccepted (fromBlock + JUMP)) ::
      syncRanges lastAccepted (min lastAccepted (fromBlock + JUMP) + 1) := by
  rw [syncRanges]
  exact if_pos h

theorem syncRanges_of_le (h : min lastAccepted (fromBlock + JUMP) ≤ fromBlock) :
    syncRanges lastAccepted fromBlock = [] := by
  rw [syncRanges]
  exact if_neg (Nat.not_lt.mpr h)

/-- **The blocks the loop replays**: from `fromBlock` on, every block up to the last accepted one, except that
one itself when the blocks left over after the full chunks would form a chunk of one block. -/
theorem blocks_syncRanges (lastAccepted fromBlock : Nat) :
    (syncRanges lastAccepted fromBlock).flatMap rangeBlocks =
      List.range' fromBlock
        (lastAccepted - fromBlock + if (lastAccepted - fromBlock) % (JUMP + 1) = 0 then 0 else 1) := by
  induction fromBlock using syncRanges.induct lastAccepted with
  | case1 fromBlock toBlock hlt ih =>
    dsimp only [toBlock] at hlt ih
    rw [syncRanges_of_lt hlt, List.flatMap_cons, ih, rangeBlocks]
    dsimp only
    by_cases hfits : lastAccepted ≤ fromBlock + JUMP
    · -- the last chunk: it ends at the last accepted block, and nothing is left after it
      have hmin : min lastAccepted (fromBlock + JUMP) = lastAccepted := min_eq_left hfits
      have hrem : (lastAccepted - fromBlock) % (JUMP + 1) ≠ 0 := by
        rw [Nat.mod_eq_of_lt (by unfold JUMP at hfits ⊢; omega)]
        omega
      have hnone : lastAccepted - (lastAccepted + 1) = 0 := by omega
      simp only [hmin, hnone, Nat.zero_mod, ↓reduceIte, if_neg hrem, Nat.add_zero, List.range'_zero,
        List.append_nil]
      exact congrArg (List.range' fromBlock) (by omega)
    · -- a full chunk of `JUMP + 1` blocks, and the rest has the same remainder
      have hmin : min lastAccepted (fromBlock + JUMP) = fromBlock + JUMP := min_eq_right (by omega)
      obtain ⟨k, hk⟩ : ∃ k, lastAccepted - fromBlock = k + (JUMP + 1) :=
        ⟨lastAccepted - fromBlock - (JUMP + 1), by omega⟩
      have hrest : lastAccepted - (fromBlock + JUMP + 1) = k := by omega
      have hfirst : fromBlock + JUMP + 1 - fromBlock = JUMP + 1 := by omega
      simp only [hmin]
      rw [hrest, hk, Nat.add_mod_right, hfirst, Nat.add_assoc, List.range'_append_1]
      exact congrArg (List.range' fromBlock) (by omega)
  | case2 fromBlock toBlock hle =>
    rw [syncRanges_of_le (Nat.not_lt.mp hle), List.flatMap_nil]
    -- no pass runs: `fromBlock` is at or past the last accepted block
    have h : lastAccepted - fromBlock = 0 := by simp only [toBlock, JUMP] at hle; omega
    rw [h, Nat.zero_mod, if_pos rfl]
    rfl

end Ranges

/-- When the blocks from the start block to the last accepted one make whole chunks and one block more, the replay
stops before the last accepted block: it is in no range `ListenAndProcessTransactions` processes. -/
theorem listenRanges_skips_lastAccepted (lastAccepted : Nat) (loadFromSnapshotEnabled : Bool)
    (loadMemoryDBSnapshot : Except String Nat) (hlast : 0 < lastAccepted)
    (hfrom : startBlock loadFromSnapshotEnabled loadMemoryDBSnapshot ≤ lastAccepted)
    (hrem : (lastAccepted - startBlock loadFromSnapshotEnabled loadMemoryDBSnapshot) % 4000 = 0) :
    lastAccepted ∉ (listenRanges lastAccepted loadFromSnapshotEnabled loadMemoryDBSnapshot).flatMap rangeBlocks := by
  have hrem' : (lastAccepted - startBlock loadFromSnapshotEnabled loadMemoryDBSnapshot) % (JUMP + 1) = 0 := hrem
  rw [listenRanges, if_pos hlast, blocks_syncRanges, if_pos hrem', Nat.add_zero, List.mem_range'_1]
  omega

/-- Without a snapshot and with block `4000` accepted, the replay processes `[0, 3999]` only. -/
theorem listenRanges_skips_block_4000 :
    listenRanges 4000 false (.error "snapshot file path not set") = [(0, 3999)] ∧
      4000 ∉ (listenRanges 4000 false (.error "snapshot file path not set")).flatMap rangeBlocks := by
  refine ⟨?_, listenRanges_skips_lastAccepted 4000 false _ (by decide) (by decide) (by decide)⟩
  rw [listenRanges, if_pos (by decide), startBlock, if_neg (by decide), syncRanges_of_lt (by decide),
    syncRanges_of_le (by decide)]
  rfl

end Hubblenet.LimitOrderProcesser
