import DaqServer.Numbering
import Mathlib.Data.List.Perm.Basic
import Mathlib.Data.List.Nodup

/-!
# Which numbers connections get

However the calls of the copies overlap, together they get the numbers that one allocator hands out
by itself, and these run through all words of 31 bits, from 1 on. Main statement: the numbers are
distinct as long as there are no more than such words, and none is zero as long as there are fewer
(`distinct_iff`).
-/

namespace DaqServer

/-- The word of a number is what is left of a word below its highest bit. -/
theorem ConnectionId.toNat_ofWire (word : UInt32) :
    (ofWire word).value.toNat = word.toNat % 0x80000000 := by
  change (word &&& 0x7FFFFFFF).toNat = _
  rw [UInt32.toNat_and]
  exact Nat.and_two_pow_sub_one_eq_mod word.toNat 31

namespace ConnectionIds

theorem take_eq (count : Nat) (ids : ConnectionIds) :
    ids.take count = (List.range count).map fun k => .ofWire (ids.next + UInt32.ofNat k) := by
  induction count generalizing ids with
  | zero => rfl
  | succ count ih =>
      have hshift (k : Nat) : ids.next + 1 + UInt32.ofNat k = ids.next + UInt32.ofNat (k + 1) := by
        rw [UInt32.ofNat_add, UInt32.add_comm (UInt32.ofNat k), ← UInt32.add_assoc]
        rfl
      rw [take_succ, ih, List.range_succ_eq_map, List.map_cons, List.map_map]
      refine congrArg₂ List.cons ?_ (List.map_congr_left fun k _ => ?_)
      · exact congrArg ConnectionId.ofWire (UInt32.add_zero ids.next).symm
      · exact congrArg ConnectionId.ofWire (hshift k)

def numberAt (k : Nat) : ConnectionId := .ofWire (fresh.next + UInt32.ofNat k)

theorem toNat_numberAt (k : Nat) : (numberAt k).value.toNat = (k + 1) % 0x80000000 := by
  rw [numberAt, ConnectionId.toNat_ofWire, UInt32.toNat_add, UInt32.toNat_ofNat']
  change (1 + k % 0x100000000) % 0x100000000 % 0x80000000 = _
  omega

theorem take_fresh (count : Nat) : fresh.take count = (List.range count).map numberAt :=
  take_eq count fresh

theorem numberAt_inj {i j : Nat} :
    numberAt i = numberAt j ↔ (i + 1) % 0x80000000 = (j + 1) % 0x80000000 := by
  rw [← toNat_numberAt, ← toNat_numberAt, UInt32.toNat_inj]
  exact ⟨congrArg ConnectionId.value, fun h => congrArg ConnectionId.mk h⟩

theorem numberAt_eq_zero {k : Nat} : numberAt k = ⟨0⟩ ↔ (k + 1) % 0x80000000 = 0 := by
  rw [← toNat_numberAt]
  exact ⟨fun h => h ▸ rfl, fun h => congrArg ConnectionId.mk (UInt32.toNat_inj.mp h)⟩

/-- The first numbers are distinct up to the one behind the wrap. -/
theorem nodup_take_fresh (count : Nat) : (fresh.take count).Nodup ↔ count ≤ 0x80000000 := by
  rw [take_fresh]
  constructor
  · intro hnodup
    by_contra hmany
    -- The first number comes again right behind the wrap.
    have hsame : numberAt 0 = numberAt 0x80000000 := numberAt_inj.mpr rfl
    have hfirst : 0 ∈ List.range count := List.mem_range.mpr (by omega)
    have hlast : 0x80000000 ∈ List.range count := List.mem_range.mpr (by omega)
    exact absurd (List.inj_on_of_nodup_map hnodup hfirst hlast hsame) (by decide)
  · intro hfew
    refine List.nodup_range.map_on fun i hi j hj hsame => ?_
    rw [List.mem_range] at hi hj
    have hmod := numberAt_inj.mp hsame
    omega

theorem zero_mem_take_fresh (count : Nat) : ⟨0⟩ ∈ fresh.take count ↔ 0x80000000 ≤ count := by
  rw [take_fresh, List.mem_map]
  constructor
  · rintro ⟨k, hk, hzero⟩
    rw [List.mem_range] at hk
    have hmod := numberAt_eq_zero.mp hzero
    omega
  · intro hmany
    exact ⟨0x80000000 - 1, List.mem_range.mpr (by omega), numberAt_eq_zero.mpr rfl⟩

theorem take_fresh_succ (count : Nat) :
    fresh.take (count + 1) = fresh.take count ++ [numberAt count] := by
  rw [take_fresh, List.range_succ, List.map_append, ← take_fresh]
  rfl

end ConnectionIds

namespace Numbering

open ConnectionIds

variable {n n' : Numbering} {count : Nat}

/-- So many words have been drawn: the counter has moved on by as many, and the numbers are those
that the allocator hands out by itself. -/
structure Drawn (n : Numbering) (count : Nat) : Prop where
  next : n.ids.next = fresh.next + UInt32.ofNat count
  issued : n.issued.Perm (fresh.take count)

theorem drawn_start : start.Drawn 0 := ⟨rfl, .refl _⟩

/-- A call that returns hands out what was its number before. -/
theorem perm_give {call : Nat} {word : UInt32} (h : n.underway[call]? = some word) :
    (n.given ++ [ConnectionId.ofWire word] ++
      (n.underway.eraseIdx call).map ConnectionId.ofWire).Perm n.issued := by
  obtain ⟨hlt, rfl⟩ := List.getElem?_eq_some_iff.mp h
  rw [List.append_assoc]
  exact ((List.getElem_cons_eraseIdx_perm hlt).map _).append_left n.given

/-- A draw takes the next number, and nothing else takes any. -/
theorem Drawn.step {act : NumberingAct} (h : n.Drawn count) (hstep : n.step act = some n') :
    n'.Drawn (count + if act.draws then 1 else 0) := by
  cases act with
  | copy copy =>
      obtain ⟨-, hn⟩ := Option.ite_none_right_eq_some.mp hstep
      cases hn
      exact ⟨h.next, h.issued⟩
  | draw copy =>
      obtain ⟨-, hn⟩ := Option.ite_none_right_eq_some.mp hstep
      cases hn
      refine ⟨?_, ?_⟩
      · change n.ids.next + 1 = fresh.next + UInt32.ofNat (count + 1)
        rw [h.next, UInt32.ofNat_add, UInt32.add_assoc]
        rfl
      · have hnumber : ConnectionId.ofWire n.ids.next = numberAt count :=
          congrArg ConnectionId.ofWire h.next
        change (n.given ++ (n.underway ++ [n.ids.next]).map ConnectionId.ofWire).Perm
          (fresh.take (count + 1))
        rw [List.map_append, ← List.append_assoc, take_fresh_succ, ← hnumber]
        exact h.issued.append_right _
  | give call =>
      obtain ⟨word, hword, rfl⟩ := Option.map_eq_some_iff.mp hstep
      exact ⟨h.next, (perm_give hword).trans h.issued⟩

theorem Drawn.run {acts : List NumberingAct} (h : n.Drawn count) (hrun : run acts n = some n') :
    n'.Drawn (count + acts.countP NumberingAct.draws) := by
  induction acts generalizing n count with
  | nil =>
      cases hrun
      exact h
  | cons act acts ih =>
      obtain ⟨next, hstep, hrest⟩ := Option.bind_eq_some_iff.mp hrun
      rw [List.countP_cons, Nat.add_comm (acts.countP _), ← Nat.add_assoc]
      exact ih (h.step hstep) hrest

/-- Whatever is copied and however the calls overlap, the numbers of all calls are those that one
allocator hands out by itself. The one after `k` others is the word `k + 1` without its highest bit;
so the numbers are distinct just as long as there are no more than `0x80000000`, and none is zero
just as long as there are fewer. -/
theorem distinct_iff {acts : List NumberingAct} (h : run acts start = some n) :
    let count := acts.countP NumberingAct.draws
    n.issued.Perm (fresh.take count) ∧
    (∀ k < count, ∃ id, (fresh.take count)[k]? = some id ∧ id.value.toNat = (k + 1) % 0x80000000) ∧
    (n.issued.Nodup ↔ count ≤ 0x80000000) ∧
    (⟨0⟩ ∉ n.issued ↔ count < 0x80000000) ∧
    n.given.Sublist n.issued ∧ (n.underway = [] → n.given = n.issued) := by
  intro count
  have hperm : n.issued.Perm (fresh.take count) := by
    have hdrawn := (drawn_start.run h).issued
    rwa [Nat.zero_add] at hdrawn
  refine ⟨hperm, fun k hk => ⟨numberAt k, ?_, toNat_numberAt k⟩,
    hperm.nodup_iff.trans (nodup_take_fresh count), ?_, List.sublist_append_left _ _,
    fun hidle => ?_⟩
  · rw [take_fresh, List.getElem?_map, List.getElem?_range hk]
    rfl
  · rw [hperm.mem_iff, zero_mem_take_fresh, Nat.not_le]
  · rw [issued, hidle, List.map_nil, List.append_nil]

/-- Two calls overlap, and the one that drew last returns first. -/
theorem distinct_after_overlap :
    let acts : List NumberingAct := [.copy 0, .draw 0, .draw 1, .give 1, .give 0]
    run acts start = some ⟨⟨3⟩, 2, [], [⟨2⟩, ⟨1⟩]⟩ ∧
      (Numbering.issued ⟨⟨3⟩, 2, [], [⟨2⟩, ⟨1⟩]⟩).Nodup := by
  intro acts
  have hrun : run acts start = some ⟨⟨3⟩, 2, [], [⟨2⟩, ⟨1⟩]⟩ := by decide
  exact ⟨hrun, (distinct_iff hrun).2.2.1.mpr (by decide)⟩

def turns (copy count : Nat) : List NumberingAct :=
  (List.replicate count [.draw copy, .give 0]).flatten

theorem run_turns {copy copies : Nat} (hcopy : copy < copies) (count : Nat) (ids : ConnectionIds)
    (given : List ConnectionId) :
    ∃ after, run (turns copy count) ⟨ids, copies, [], given⟩ =
      some ⟨after, copies, [], given ++ ids.take count⟩ := by
  induction count generalizing ids given with
  | zero => exact ⟨ids, by rw [take_zero, List.append_nil]; rfl⟩
  | succ count ih =>
      obtain ⟨after, hrest⟩ := ih ids.allocate.2 (given ++ [ids.allocate.1])
      -- The call returns at once, so the next one finds none underway.
      have hdraw : Numbering.step ⟨ids, copies, [], given⟩ (.draw copy) =
          some ⟨ids.allocate.2, copies, [ids.next], given⟩ := if_pos hcopy
      refine ⟨after, ?_⟩
      rw [turns, List.replicate_succ, List.flatten_cons, take_succ, List.append_cons]
      change (Numbering.step ⟨ids, copies, [], given⟩ (.draw copy)).bind _ = _
      rw [hdraw]
      exact hrest

theorem exists_run_turns (count : Nat) :
    ∃ n, run (.copy 0 :: turns 1 count) start = some n ∧ n.underway = [] ∧
      n.given = fresh.take count := by
  have hcopy : 1 < 2 := Nat.lt_succ_self 1
  obtain ⟨after, hrun⟩ := run_turns hcopy count fresh []
  exact ⟨_, hrun, rfl, List.nil_append _⟩

/-- A copy is called often enough: the connection behind `0x80000000 - 1` others is zero, and the
one behind it has the number of the first. -/
theorem number_comes_again :
    ∃ n, run (.copy 0 :: turns 1 (0x80000000 + 1)) start = some n ∧ n.underway = [] ∧
      n.given.length = 0x80000000 + 1 ∧ ⟨0⟩ ∈ n.given ∧ ¬ n.given.Nodup := by
  obtain ⟨n, hrun, hidle, hgiven⟩ := exists_run_turns (0x80000000 + 1)
  refine ⟨n, hrun, hidle, ?_, ?_, ?_⟩
  · rw [hgiven, take_fresh, List.length_map, List.length_range]
  · rw [hgiven]
    exact (zero_mem_take_fresh _).mpr (Nat.le_succ _)
  · rw [hgiven]
    exact mt (nodup_take_fresh _).mp (Nat.not_succ_le_self _)

end Numbering

end DaqServer
