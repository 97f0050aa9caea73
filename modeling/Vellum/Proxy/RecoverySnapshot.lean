/-
The recovery snapshot of a conversation, and its merge with the live one.  The
merge takes the union of the records as wholes and keeps the states that the
stored snapshot has, so a record with another request index is kept beside the
first, and a live state that is further on is dropped.
-/
import Vellum.Library.Arrivals

namespace Vellum.Proxy

open List

/-- An intervention that was applied. -/
structure RecoveryRecord where
  kind : String
  taskRevision : Nat
  requestIndex : Nat
deriving DecidableEq

/-- What an intervention is known by. -/
def RecoveryRecord.key (record : RecoveryRecord) : String × Nat :=
  (record.kind, record.taskRevision)

/-- The states of the three behaviours are carried along and not looked into. -/
structure RecoverySnapshot (Investigation Stall Efficiency : Type) where
  conversationKey : String
  investigation : Option Investigation := none
  stall : Option Stall := none
  efficiency : Option Efficiency := none
  taskRevision : Nat := 0
  lastUserTurnId : Option String := none
  usageWatermark : Nat := 0
  recoveryRecords : List RecoveryRecord := []
  conversionRecords : List RecoveryRecord := []

namespace RecoverySnapshot

open Arrivals

variable {Investigation Stall Efficiency : Type}

variable (snapshot : RecoverySnapshot Investigation Stall Efficiency)
  (kind : String)

def alreadyRecovered (taskRevision : Nat) : Bool :=
  snapshot.recoveryRecords.any fun record =>
    record.kind == kind && record.taskRevision == taskRevision

def recordRecovery (taskRevision requestIndex : Nat) :
    RecoverySnapshot Investigation Stall Efficiency :=
  if snapshot.alreadyRecovered kind taskRevision then snapshot
  else
    { snapshot with
      recoveryRecords :=
        snapshot.recoveryRecords ++ [⟨kind, taskRevision, requestIndex⟩]
      taskRevision := max snapshot.taskRevision taskRevision }

def mergeLive (stored live : RecoverySnapshot Investigation Stall Efficiency) :
    RecoverySnapshot Investigation Stall Efficiency :=
  let taskRevision := max stored.taskRevision live.taskRevision
  { stored with
    taskRevision
    lastUserTurnId :=
      if taskRevision ≤ live.taskRevision && live.lastUserTurnId.isSome then
        live.lastUserTurnId
      else stored.lastUserTurnId
    usageWatermark := max stored.usageWatermark live.usageWatermark
    recoveryRecords := arriveAll stored.recoveryRecords live.recoveryRecords
    conversionRecords :=
      arriveAll stored.conversionRecords live.conversionRecords
    investigation := stored.investigation.or live.investigation
    stall := stored.stall.or live.stall
    efficiency := stored.efficiency.or live.efficiency }

/-- No intervention is recorded twice. -/
def RecordedOnce : Prop :=
  (snapshot.recoveryRecords.map RecoveryRecord.key).Nodup

section

variable {stored live snapshot :
    RecoverySnapshot Investigation Stall Efficiency}

theorem alreadyRecovered_iff {kind : String} {taskRevision : Nat} :
    snapshot.alreadyRecovered kind taskRevision = true ↔
      (kind, taskRevision) ∈
        snapshot.recoveryRecords.map RecoveryRecord.key := by
  simp [alreadyRecovered, RecoveryRecord.key]

theorem RecordedOnce.recordRecovery (honce : snapshot.RecordedOnce)
    (kind : String) (taskRevision requestIndex : Nat) :
    (snapshot.recordRecovery kind taskRevision requestIndex).RecordedOnce := by
  rw [RecoverySnapshot.recordRecovery]
  split
  · exact honce
  · rename_i hnew
    rw [alreadyRecovered_iff] at hnew
    rw [RecordedOnce, map_append]
    exact honce.append (nodup_singleton _)
      (disjoint_singleton.mpr hnew)

/-- A merge that knows all of what was merged already changes nothing. -/
theorem mergeLive_mergeLive :
    (stored.mergeLive live).mergeLive live = stored.mergeLive live := by
  have hrecords : ∀ seen things : List RecoveryRecord,
      arriveAll (arriveAll seen things) things = arriveAll seen things :=
    fun seen things => arriveAll_of_subset fun thing hmem =>
      mem_arriveAll.mpr (Or.inr hmem)
  have hor {State : Type} (kept other : Option State) :
      (kept.or other).or other = kept.or other := by
    rw [Option.or_assoc, Option.or_self]
  simp only [mergeLive, hrecords, hor, max_assoc, max_self]
  split_ifs <;> rfl

/-- An intervention that both know was applied for the same request. -/
def RecordsAgree (stored live : RecoverySnapshot Investigation Stall Efficiency) :
    Prop :=
  ∀ kept ∈ stored.recoveryRecords, ∀ record ∈ live.recoveryRecords,
    kept.key = record.key → kept.requestIndex = record.requestIndex

theorem recordedOnce_mergeLive_iff (hstored : stored.RecordedOnce)
    (hlive : live.RecordedOnce) :
    (stored.mergeLive live).RecordedOnce ↔ stored.RecordsAgree live := by
  constructor
  · intro honce kept hkept record hrecord hkey
    rw [inj_on_of_nodup_map honce (mem_arriveAll.mpr (Or.inl hkept))
      (mem_arriveAll.mpr (Or.inr hrecord)) hkey]
  · intro hagree
    have hcross : ∀ kept ∈ stored.recoveryRecords,
        ∀ record ∈ live.recoveryRecords, kept.key = record.key →
          kept = record := by
      rintro ⟨kind, revision, index⟩ hkept ⟨kind', revision', index'⟩ hrecord
        hkey
      obtain ⟨rfl, rfl⟩ := Prod.mk.inj hkey
      rw [show index = index' from hagree _ hkept _ hrecord hkey]
    refine (nodup_map_iff_inj_on
      (nodup_arriveAll hstored.of_map live.recoveryRecords)).mpr ?_
    intro first hfirst second hsecond hkey
    rcases mem_arriveAll.mp hfirst with hfirst | hfirst <;>
      rcases mem_arriveAll.mp hsecond with hsecond | hsecond
    · exact inj_on_of_nodup_map hstored hfirst hsecond hkey
    · exact hcross first hfirst second hsecond hkey
    · exact (hcross second hsecond first hfirst hkey.symm).symm
    · exact inj_on_of_nodup_map hlive hfirst hsecond hkey

end

/-! What a merge may lose. -/

/-- A state that is as far on as the other one, where there is another. -/
def AtLeast {State : Type} (activity : State → Nat)
    (merged other : Option State) : Prop :=
  ∀ state ∈ other, ∃ kept ∈ merged, activity state ≤ activity kept

/-- Where both have a state, the live one is not further on. -/
def NotBehind {State : Type} (activity : State → Nat)
    (stored live : Option State) : Prop :=
  ∀ kept ∈ stored, ∀ state ∈ live, activity state ≤ activity kept

theorem atLeast_or_iff {State : Type} {activity : State → Nat}
    {stored live : Option State} :
    (AtLeast activity (stored.or live) stored ∧
      AtLeast activity (stored.or live) live) ↔ NotBehind activity stored live := by
  cases stored with
  | none =>
    have hsame : AtLeast activity live live :=
      fun state hstate => ⟨state, hstate, Nat.le_refl _⟩
    simpa [AtLeast, NotBehind] using hsame
  | some kept => simp [AtLeast, NotBehind]

variable (investigationSeq : Investigation → Nat) (stallSeq : Stall → Nat)
  (efficiencySeq : Efficiency → Nat)

/-- What is claimed of a merge. -/
structure LosesNothing
    (stored live merged : RecoverySnapshot Investigation Stall Efficiency) :
    Prop where
  recovered : ∀ kind taskRevision,
    stored.alreadyRecovered kind taskRevision = true ∨
      live.alreadyRecovered kind taskRevision = true →
    merged.alreadyRecovered kind taskRevision = true
  once : merged.RecordedOnce
  revision : merged.taskRevision = max stored.taskRevision live.taskRevision
  usage : merged.usageWatermark = max stored.usageWatermark live.usageWatermark
  investigation :
    AtLeast investigationSeq merged.investigation stored.investigation ∧
      AtLeast investigationSeq merged.investigation live.investigation
  stall : AtLeast stallSeq merged.stall stored.stall ∧
    AtLeast stallSeq merged.stall live.stall
  efficiency : AtLeast efficiencySeq merged.efficiency stored.efficiency ∧
    AtLeast efficiencySeq merged.efficiency live.efficiency
  again : merged.mergeLive live = merged

/-- A merge loses nothing exactly when no intervention is recorded with two
request indices and no live state is further on than the stored one. -/
theorem mergeLive_losesNothing_iff
    {stored live : RecoverySnapshot Investigation Stall Efficiency}
    (hstored : stored.RecordedOnce) (hlive : live.RecordedOnce) :
    LosesNothing investigationSeq stallSeq efficiencySeq stored live
        (stored.mergeLive live) ↔
      stored.RecordsAgree live ∧
        NotBehind investigationSeq stored.investigation live.investigation ∧
        NotBehind stallSeq stored.stall live.stall ∧
        NotBehind efficiencySeq stored.efficiency live.efficiency := by
  constructor
  · intro hkept
    exact ⟨(recordedOnce_mergeLive_iff hstored hlive).mp hkept.once,
      atLeast_or_iff.mp hkept.investigation, atLeast_or_iff.mp hkept.stall,
      atLeast_or_iff.mp hkept.efficiency⟩
  · rintro ⟨hagree, hinvestigation, hstall, hefficiency⟩
    refine ⟨fun kind taskRevision hknown => ?_,
      (recordedOnce_mergeLive_iff hstored hlive).mpr hagree, rfl, rfl,
      atLeast_or_iff.mpr hinvestigation, atLeast_or_iff.mpr hstall,
      atLeast_or_iff.mpr hefficiency, mergeLive_mergeLive⟩
    rw [alreadyRecovered_iff, alreadyRecovered_iff] at hknown
    rw [alreadyRecovered_iff]
    rcases hknown with hknown | hknown <;>
      obtain ⟨record, hmem, hkey⟩ := mem_map.mp hknown
    · exact mem_map.mpr ⟨record, mem_arriveAll.mpr (Or.inl hmem), hkey⟩
    · exact mem_map.mpr ⟨record, mem_arriveAll.mpr (Or.inr hmem), hkey⟩

end RecoverySnapshot

namespace TwoIndices

/-- A snapshot with one intervention at the third task revision. -/
def recorded (kind : String) (requestIndex : Nat) :
    RecoverySnapshot Nat Nat Nat :=
  RecoverySnapshot.recordRecovery { conversationKey := "conv-1" } kind 3
    requestIndex

theorem recordedOnce_recorded (kind : String) (requestIndex : Nat) :
    (recorded kind requestIndex).RecordedOnce :=
  @RecoverySnapshot.RecordedOnce.recordRecovery _ _ _
    { conversationKey := "conv-1" } nodup_nil _ _ _

theorem other_behaviours_merge :
    RecoverySnapshot.LosesNothing id id id (recorded "task_stall" 10)
      (recorded "task_efficiency" 11)
      ((recorded "task_stall" 10).mergeLive
        (recorded "task_efficiency" 11)) :=
  (RecoverySnapshot.mergeLive_losesNothing_iff id id id
    (recordedOnce_recorded "task_stall" 10)
    (recordedOnce_recorded "task_efficiency" 11)).mpr
    ⟨by unfold RecoverySnapshot.RecordsAgree; decide, by rintro _ ⟨⟩,
      by rintro _ ⟨⟩, by rintro _ ⟨⟩⟩

/-- One intervention that was recorded for two requests is kept twice. -/
theorem same_intervention_is_kept_twice :
    ¬ RecoverySnapshot.LosesNothing id id id (recorded "task_stall" 10)
      (recorded "task_stall" 11)
      ((recorded "task_stall" 10).mergeLive (recorded "task_stall" 11)) :=
  fun hkept => absurd hkept.once (by
    unfold RecoverySnapshot.RecordedOnce
    decide)

end TwoIndices

end Vellum.Proxy
