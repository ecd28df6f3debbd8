import FiduciaRouting.Library.Equidistribution
import FiduciaRouting.Proofs.SuffixColocation

/-! How evenly keys spread. At a power-of-two count of at most 128 shards one free
ASCII character spreads any family of keys exactly evenly, whatever surrounds it. -/

namespace FiduciaRouting.Proofs.Spread
open Library CheckedArithmetic Text Placement Reachability SuffixColocation

variable {k length : ℕ}

def wordText (word : Fin length → Fin 128) : String := asciiText (List.ofFn (fun index => UInt8.ofNat (word index)))

theorem toNat_character (character : Fin 128) : (UInt8.ofNat character.val).toNat = character.val := by
  rw [UInt8.toNat_ofNat']
  omega

theorem bytes_wordText (word : Fin length → Fin 128) :
    bytes (wordText word) = List.ofFn (fun index => UInt8.ofNat (word index)) := by
  apply bytes_asciiText
  intro byte member
  obtain ⟨index, rfl⟩ := (List.mem_ofFn' _ _).mp member
  rw [toNat_character]
  exact (word index).isLt

/-- With the other characters fixed, the first one separates the residues. -/
theorem wordText_modEq_iff (narrow : k ≤ 32) (start rest : String) (others : Fin length → Fin 128) (first second : Fin 128) :
    (fnv1a (start ++ wordText (Fin.cons first others) ++ rest)).toNat ≡
        (fnv1a (start ++ wordText (Fin.cons second others) ++ rest)).toNat [MOD 2 ^ k] ↔
      first.val ≡ second.val [MOD 2 ^ k] := by
  have written (character : Fin 128) : (bytes (start ++ wordText (Fin.cons character others) ++ rest)).map
        (fun b => b.toUInt32.toBitVec) =
      (bytes start).map (fun b => b.toUInt32.toBitVec) ++ (UInt8.ofNat character.val).toUInt32.toBitVec ::
        (List.ofFn (fun index => UInt8.ofNat (others index)) ++ bytes rest).map (fun b => b.toUInt32.toBitVec) := by
    simp [bytes_wordText, List.ofFn_succ]
  have digit (character : Fin 128) : (UInt8.ofNat character.val).toUInt32.toBitVec.toNat = character.val := by
    rw [UInt32.toNat_toBitVec, UInt8.toNat_toUInt32, toNat_character]
  rw [toNat_fnv1a, toNat_fnv1a, written, written,
    MultiplicativeHash.run_replace_modEq_iff fnvPrime.toBitVec (by decide) narrow, digit, digit]

theorem shardFor_eq_ok_iff (narrow : k < 32) {key : String} {shard : UInt32} (below : shard < shards k) :
    shardFor key (shards k) = .ok shard ↔ (fnv1a key).toNat ≡ shard.toNat [MOD 2 ^ k] := by
  have inside : shard.toNat < 2 ^ k := toNat_shards narrow ▸ UInt32.lt_iff_toNat_lt.mp below
  have returns := shardFor_returns (shards_pos narrow) key
  rw [toNat_shards narrow] at returns
  rw [Nat.ModEq, Nat.mod_eq_of_lt inside]
  constructor
  · intro returned
    rw [returned, returns_ok_iff] at returns
    exact returns.symm
  · intro reduced
    rw [returns.eq_ok, reduced, UInt32.ofNat_toNat]

/-- Of all keys of one shape, every shard receives the same number. -/
theorem shards_receive_evenly (few : k ≤ 7) (length : ℕ) (start rest : String) {shard : UInt32} (below : shard < shards k) :
    (Finset.univ.filter (fun word : Fin (length + 1) → Fin 128 =>
      shardFor (start ++ wordText word ++ rest) (shards k) = .ok shard)).card * 2 ^ k = 128 ^ (length + 1) := by
  have split : 2 ^ k * 2 ^ (7 - k) = 128 := by
    rw [← pow_add, Nat.add_sub_cancel' few]
    rfl
  simp only [shardFor_eq_ok_iff (show k < 32 by omega) below]
  exact Equidistribution.card_words split (by omega) (fun others => wordText_modEq_iff (by omega) start rest others) _

theorem shards_receive_evenly_sixteen : 4 ≤ 7 ∧ (9 : UInt32) < shards 4 ∧
    (Finset.univ.filter (fun word : Fin (2 + 1) → Fin 128 =>
      shardFor ("orders/" ++ wordText word ++ "/items") (shards 4) = .ok 9)).card * 2 ^ 4 = 128 ^ (2 + 1) :=
  ⟨by decide, by decide, shards_receive_evenly (by decide) 2 "orders/" "/items" (by decide)⟩

end FiduciaRouting.Proofs.Spread
