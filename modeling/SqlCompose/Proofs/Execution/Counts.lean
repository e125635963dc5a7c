import Mathlib.Data.List.Forall2
import SqlCompose.Count

/-! The numbers that a driver reports for the members of a batch. Either each of them stands for a
member that ran, or the first that does not fails the batch, and nothing is said about later members. -/

namespace SqlCompose

namespace AffectedCount

/-- The number that is reported for a member that ran. -/
def Succeeded (raw : Int64) : Prop := 0 ≤ raw.toInt ∨ raw.toInt = -2

/-- What the number of a member that ran says about its rows. -/
inductive Tells (raw : Int64) : AffectedCount → Prop where
  | rows {n : UInt64} (h : raw.toInt = n.toNat) : Tells raw (.rows n)
  | unknown (h : raw.toInt = -2) : Tells raw .unknown

/-- A number that is not negative counts the same rows without its sign. -/
theorem toInt_eq_toNat_toUInt64 {raw : Int64} (h : 0 ≤ raw.toInt) :
    raw.toInt = raw.toUInt64.toNat := by
  have hbits : raw.toInt = raw.toUInt64.toBitVec.toInt := rfl
  have hnat : raw.toUInt64.toBitVec.toNat = raw.toUInt64.toNat := rfl
  rw [BitVec.toInt_eq_toNat_cond, hnat] at hbits
  have hlt := raw.toUInt64.toNat_lt
  by_cases hsign : 2 * raw.toUInt64.toNat < 2 ^ 64
  · rwa [if_pos hsign] at hbits
  · rw [if_neg hsign] at hbits
    omega

theorem eq_noInfo_iff {raw : Int64} : raw = noInfo ↔ raw.toInt = -2 := by
  have hinfo : noInfo.toInt = -2 := by decide
  rw [← hinfo, Int64.toInt_inj]

theorem ofRaw_of_tells {raw : Int64} {count : AffectedCount} (h : Tells raw count) :
    ofRaw raw = .ok count := by
  cases h with
  | unknown h => rw [ofRaw, if_pos (eq_noInfo_iff.mpr h)]
  | @rows n h =>
    have hinfo : raw ≠ noInfo := by
      rw [ne_eq, eq_noInfo_iff]
      omega
    have hsign : ¬raw < 0 := by
      rw [Int64.lt_iff_toInt_lt, Int64.toInt_zero]
      omega
    have hrows : raw.toUInt64 = n := by
      have hnonneg : 0 ≤ raw.toInt := by omega
      have hcount := toInt_eq_toNat_toUInt64 hnonneg
      exact UInt64.toNat_inj.mp (by omega)
    rw [ofRaw, if_neg hinfo, if_neg hsign, hrows]

theorem ofRaw_of_not_succeeded {raw : Int64} (h : ¬Succeeded raw) :
    ofRaw raw = .error (.executionFailed raw.toInt) := by
  unfold Succeeded at h
  have hinfo : raw ≠ noInfo := by
    rw [ne_eq, eq_noInfo_iff]
    omega
  have hsign : raw < 0 := by
    rw [Int64.lt_iff_toInt_lt, Int64.toInt_zero]
    omega
  rw [ofRaw, if_neg hinfo, if_pos hsign]

theorem Succeeded.exists_tells {raw : Int64} (h : Succeeded raw) : ∃ count, Tells raw count := by
  rcases h with h | h
  · exact ⟨_, .rows (toInt_eq_toNat_toUInt64 h)⟩
  · exact ⟨_, .unknown h⟩

theorem exists_tells_of_forall {raws : List Int64} (h : ∀ raw ∈ raws, Succeeded raw) :
    ∃ counts, List.Forall₂ Tells raws counts := by
  induction raws with
  | nil => exact ⟨[], .nil⟩
  | cons raw raws ih =>
    obtain ⟨count, hcount⟩ := (h raw List.mem_cons_self).exists_tells
    obtain ⟨counts, hcounts⟩ := ih fun r hr => h r (List.mem_cons_of_mem _ hr)
    exact ⟨count :: counts, .cons hcount hcounts⟩

/-- A warning about a member that could not be counted. -/
def uncounted (sql : String) (index : Nat) (raw : Int64) : LogEvent :=
  .batchMember .warn "batch member reported no affected-row count" index raw.toInt sql

def failed (sql : String) (index : Nat) (raw : Int64) : LogEvent :=
  .batchMember .error "batch member failed" index raw.toInt sql

/-- The warnings about members that could not be counted, the first member having the number
`first`. -/
def warnings (sql : String) (first : Nat) (raws : List Int64) : List LogEvent :=
  (raws.zipIdx first).filterMap fun (raw, index) =>
    if raw.toInt = -2 then some (uncounted sql index raw) else none

section

variable (sql : String)

theorem warnings_append (first : Nat) (raws more : List Int64) :
    warnings sql first (raws ++ more) =
      warnings sql first raws ++ warnings sql (first + raws.length) more := by
  rw [warnings, List.zipIdx_append, List.filterMap_append]
  rfl

theorem ofBatch_cons {raw : Int64} {count : AffectedCount} (h : Tells raw count) (index : Nat)
    (rest : List Int64) :
    ofBatch sql index (raw :: rest) =
      ((ofBatch sql (index + 1) rest).1.map (count :: ·),
        warnings sql index [raw] ++ (ofBatch sql (index + 1) rest).2) := by
  rw [ofBatch, ofRaw_of_tells h]
  cases h with
  | rows h =>
    have hnot : raw.toInt ≠ -2 := by omega
    simp [warnings, hnot]
  | unknown h => simp [warnings, uncounted, h]

theorem ofBatch_cons_failed {raw : Int64} (h : ¬Succeeded raw) (index : Nat) (rest : List Int64) :
    ofBatch sql index (raw :: rest) =
      (.error (.executionFailed raw.toInt), [failed sql index raw]) := by
  rw [ofBatch, ofRaw_of_not_succeeded h]
  rfl

/-- Members that ran leave the rest of the batch to be read with the numbers that follow theirs. -/
theorem ofBatch_append {raws : List Int64} {counts : List AffectedCount}
    (h : List.Forall₂ Tells raws counts) (index : Nat) (rest : List Int64) :
    ofBatch sql index (raws ++ rest) =
      ((ofBatch sql (index + raws.length) rest).1.map (counts ++ ·),
        warnings sql index raws ++ (ofBatch sql (index + raws.length) rest).2) := by
  induction h generalizing index with
  | nil =>
    cases hrest : ofBatch sql index rest with
    | mk result events => cases result <;> simp [hrest, warnings, Except.map]
  | @cons raw count raws counts hraw hraws ih =>
    have hnumber : index + 1 + raws.length = index + (raw :: raws).length := by
      rw [List.length_cons]
      omega
    have hwarnings := warnings_append sql index [raw] raws
    rw [List.singleton_append, List.length_singleton] at hwarnings
    rw [List.cons_append, ofBatch_cons sql hraw, ih, hnumber, hwarnings, List.append_assoc]
    cases (ofBatch sql (index + (raw :: raws).length) rest).1 <;> rfl

theorem ofBatch_of_tells {raws : List Int64} {counts : List AffectedCount}
    (h : List.Forall₂ Tells raws counts) (index : Nat) :
    ofBatch sql index raws = (.ok counts, warnings sql index raws) := by
  have happend := ofBatch_append sql h index []
  rwa [List.append_nil, ofBatch, Except.map, List.append_nil, List.append_nil] at happend

theorem ofBatch_of_first {before : List Int64} {raw : Int64} (hbefore : ∀ r ∈ before, Succeeded r)
    (hraw : ¬Succeeded raw) (index : Nat) (after : List Int64) :
    ofBatch sql index (before ++ raw :: after) =
      (.error (.executionFailed raw.toInt),
        warnings sql index before ++ [failed sql (index + before.length) raw]) := by
  obtain ⟨counts, hcounts⟩ := exists_tells_of_forall hbefore
  rw [ofBatch_append sql hcounts, ofBatch_cons_failed sql hraw]
  rfl

theorem forall_succeeded_or_first (raws : List Int64) :
    (∀ raw ∈ raws, Succeeded raw) ∨
      ∃ before raw after, raws = before ++ raw :: after ∧ (∀ r ∈ before, Succeeded r) ∧
        ¬Succeeded raw := by
  induction raws with
  | nil => exact .inl fun raw h => absurd h List.not_mem_nil
  | cons raw raws ih =>
    by_cases hraw : Succeeded raw
    · rcases ih with hall | ⟨before, r, after, rfl, hbefore, hr⟩
      · exact .inl (List.forall_mem_cons.mpr ⟨hraw, hall⟩)
      · exact .inr ⟨raw :: before, r, after, rfl, List.forall_mem_cons.mpr ⟨hraw, hbefore⟩, hr⟩
    · exact .inr ⟨[], raw, raws, rfl, fun r h => absurd h List.not_mem_nil, hraw⟩

/-- The numbers of a batch are read all or none. They are read exactly when every member ran, and
then each gives its count, with one warning for each member that could not be counted. Otherwise the
first number of a member that did not run is the error. What was reported until then is the warnings
about the members before it and the failure itself. -/
theorem ofBatch_all_or_none (raws : List Int64) :
    ((∃ counts, (ofBatch sql 0 raws).1 = .ok counts) ↔ ∀ raw ∈ raws, Succeeded raw) ∧
    (∀ counts events, ofBatch sql 0 raws = (.ok counts, events) →
      List.Forall₂ Tells raws counts ∧ events = warnings sql 0 raws) ∧
    ∀ e events, ofBatch sql 0 raws = (.error e, events) →
      ∃ before raw after, raws = before ++ raw :: after ∧ (∀ r ∈ before, Succeeded r) ∧
        ¬Succeeded raw ∧ e = .executionFailed raw.toInt ∧
        events = warnings sql 0 before ++ [failed sql before.length raw] := by
  rcases forall_succeeded_or_first raws with hall | ⟨before, raw, after, rfl, hbefore, hraw⟩
  · obtain ⟨counts, hcounts⟩ := exists_tells_of_forall hall
    have hread := ofBatch_of_tells sql hcounts 0
    refine ⟨⟨fun _ => hall, fun _ => ⟨counts, by rw [hread]⟩⟩, fun counts' events h => ?_,
      fun e events h => ?_⟩
    · obtain ⟨hok, rfl⟩ := Prod.mk.inj (hread.symm.trans h)
      exact ⟨Except.ok.inj hok ▸ hcounts, rfl⟩
    · cases hread.symm.trans h
  · have hread := ofBatch_of_first sql hbefore hraw 0 after
    rw [Nat.zero_add] at hread
    refine ⟨⟨fun ⟨counts, h⟩ => ?_, fun hall => ?_⟩, fun counts events h => ?_,
      fun e events h => ?_⟩
    · rw [hread] at h
      cases h
    · exact absurd (hall raw (List.mem_append_right _ List.mem_cons_self)) hraw
    · cases hread.symm.trans h
    · obtain ⟨herror, rfl⟩ := Prod.mk.inj (hread.symm.trans h)
      exact ⟨before, raw, after, rfl, hbefore, hraw, (Except.error.inj herror).symm, rfl⟩

end

/-- The smallest number there is fails the batch. The member behind it is not warned about. -/
example :
    ofBatch "select 1" 0 [3, -2, Int64.minValue, -2] =
      (.error (.executionFailed (-2 ^ 63)),
        [uncounted "select 1" 1 (-2), failed "select 1" 2 Int64.minValue]) := by rfl

end AffectedCount

end SqlCompose
