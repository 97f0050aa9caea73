/-
The acknowledged position of a cached remote host: the thread and the sequence
a client resumes from.  Both are columns of one row of `remote_hosts`, written
by one statement, the thread by overwriting and the sequence by taking the
larger value.  Sequences count the events of one thread, so the larger value
may be another thread's.
-/
import Vellum.Library.KeyedTable

namespace Vellum

open List
namespace Desktop

/-- The columns of `remote_hosts` that the resume cursor lives in.  The
sequence is an SQL `INTEGER`. -/
structure CachedHost where
  id : String
  lastThreadId : Option String
  lastAckSeq : Int64
  cursorScheme : String
deriving DecidableEq

abbrev RemoteHosts := KeyedTable CachedHost.id

/-- What `list_hosts` reads back as the resume cursor. -/
def CachedHost.cursor (host : CachedHost) : Option String × UInt64 :=
  (host.lastThreadId, host.lastAckSeq.toUInt64)

def CachedHost.acknowledge (threadId : String) (throughSeq : UInt64)
    (host : CachedHost) : CachedHost :=
  { host with
    lastThreadId := some threadId
    lastAckSeq :=
      if throughSeq.toInt64 > host.lastAckSeq then throughSeq.toInt64
      else host.lastAckSeq }

@[simp]
theorem CachedHost.acknowledge_id (threadId : String) (throughSeq : UInt64)
    (host : CachedHost) : (host.acknowledge threadId throughSeq).id = host.id :=
  rfl

def updateAck (hosts : RemoteHosts) (hostId threadId : String)
    (throughSeq : UInt64) : RemoteHosts :=
  hosts.modify (fun host => host.id = hostId)
    (CachedHost.acknowledge threadId throughSeq)
    (CachedHost.acknowledge_id threadId throughSeq)

def CachedHost.resetAck (expectedScheme : String) (host : CachedHost) :
    CachedHost :=
  { host with lastAckSeq := 0, cursorScheme := expectedScheme }

@[simp]
theorem CachedHost.resetAck_id (expectedScheme : String) (host : CachedHost) :
    (host.resetAck expectedScheme).id = host.id := rfl

def invalidateAckIfCursorSchemeMismatch (hosts : RemoteHosts)
    (hostId expectedScheme : String) : RemoteHosts × Bool :=
  let current := (hosts.find? hostId).map CachedHost.cursorScheme
  -- A host that is not cached counts as one of the expected scheme.
  if current.getD expectedScheme = expectedScheme then (hosts, false)
  else
    (hosts.modify (fun host => host.id = hostId)
      (CachedHost.resetAck expectedScheme)
      (CachedHost.resetAck_id expectedScheme), true)

/-- A call of the cache that touches acknowledged positions. -/
inductive AckCall where
  | updateAck (hostId threadId : String) (throughSeq : UInt64)
  | invalidate (hostId expectedScheme : String)

def AckCall.apply (hosts : RemoteHosts) : AckCall → RemoteHosts
  | .updateAck hostId threadId throughSeq =>
    Desktop.updateAck hosts hostId threadId throughSeq
  | .invalidate hostId expectedScheme =>
    (invalidateAckIfCursorSchemeMismatch hosts hostId expectedScheme).1

/-- The resume cursor of a cached host after a sequence of calls. -/
def cursorAfter (hosts : RemoteHosts) (hostId : String)
    (calls : List AckCall) : Option (Option String × UInt64) :=
  ((calls.foldl AckCall.apply hosts).find? hostId).map CachedHost.cursor

/-- What was acknowledged on one host since the last invalidation, newest
first.  A host starts a period with the pair it is cached with, and an
invalidation starts one with its thread at sequence zero, so a period is never
empty. -/
structure AckPeriod where
  scheme : String
  latest : Option String × UInt64
  earlier : List (Option String × UInt64)

namespace AckPeriod

def acks (period : AckPeriod) : List (Option String × UInt64) :=
  period.latest :: period.earlier

/-- A sequence acknowledged for the thread acknowledged last. -/
def Own (period : AckPeriod) (seq : UInt64) : Prop :=
  (period.latest.1, seq) ∈ period.acks

def start (host : CachedHost) : AckPeriod where
  scheme := host.cursorScheme
  latest := host.cursor
  earlier := []

def note (hostId : String) (period : AckPeriod) : AckCall → AckPeriod
  | .updateAck named threadId throughSeq =>
    if named = hostId then
      { period with
        latest := (some threadId, throughSeq)
        earlier := period.acks }
    else period
  | .invalidate named expectedScheme =>
    if named = hostId ∧ period.scheme ≠ expectedScheme then
      ⟨expectedScheme, (period.latest.1, 0), []⟩
    else period

/-- The period a sequence of calls ends in. -/
def after (host : CachedHost) (calls : List AckCall) : AckPeriod :=
  calls.foldl (note host.id) (start host)

/-- A valid resume cursor: the thread acknowledged last and the greatest
sequence acknowledged for that thread. -/
def Valid (period : AckPeriod) (cursor : Option String × UInt64) : Prop :=
  cursor.1 = period.latest.1 ∧ IsGreatest {seq | period.Own seq} cursor.2

/-- The greatest sequence of the last thread is, as a signed number, not below
any sequence acknowledged in the period, for whichever thread. -/
def OwnLeads (period : AckPeriod) : Prop :=
  ∃ seq, IsGreatest {own | period.Own own} seq ∧
    ∀ ack ∈ period.acks, ack.2.toInt64 ≤ seq.toInt64

/-- The stored row holds the period's thread and the signed maximum over all
its acknowledgements. -/
structure StoredAs (period : AckPeriod) (host : CachedHost) : Prop where
  scheme : host.cursorScheme = period.scheme
  thread : host.lastThreadId = period.latest.1
  greatest : IsGreatest {seq | ∃ ack ∈ period.acks, ack.2.toInt64 = seq}
    host.lastAckSeq

theorem storedAs_start (host : CachedHost) : (start host).StoredAs host where
  scheme := rfl
  thread := rfl
  greatest := by
    have hself : host.lastAckSeq.toUInt64.toInt64 = host.lastAckSeq := by simp
    constructor
    · exact ⟨host.cursor, mem_cons_self, hself⟩
    · rintro seq ⟨ack, hack, rfl⟩
      rw [mem_singleton.mp hack]
      exact Int64.le_of_eq hself

section

variable {period : AckPeriod} {hostId : String} {host : CachedHost}

theorem StoredAs.acknowledge (hstored : period.StoredAs host)
    (threadId : String) (throughSeq : UInt64) :
    { period with
      latest := (some threadId, throughSeq)
      earlier := period.acks : AckPeriod }.StoredAs
      (host.acknowledge threadId throughSeq) where
  scheme := hstored.scheme
  thread := rfl
  greatest := by
    obtain ⟨⟨held, hheld, hvalue⟩, hbound⟩ := hstored.greatest
    simp only [CachedHost.acknowledge]
    split
    · rename_i hlarger
      constructor
      · exact ⟨_, mem_cons_self, rfl⟩
      · rintro seq ⟨ack, hack, rfl⟩
        rcases mem_cons.mp hack with rfl | hearlier
        · exact Int64.le_refl _
        · have hle := hbound ⟨ack, hearlier, rfl⟩
          exact Int64.le_of_lt (Int64.lt_of_le_of_lt hle hlarger)
    · rename_i hsmaller
      constructor
      · exact ⟨held, mem_cons_of_mem _ hheld, hvalue⟩
      · rintro seq ⟨ack, hack, rfl⟩
        rcases mem_cons.mp hack with rfl | hearlier
        · exact Int64.not_lt.mp hsmaller
        · exact hbound ⟨ack, hearlier, rfl⟩

theorem StoredAs.resetAck (hstored : period.StoredAs host)
    (expectedScheme : String) :
    AckPeriod.StoredAs ⟨expectedScheme, (period.latest.1, 0), []⟩
      (host.resetAck expectedScheme) where
  scheme := rfl
  thread := hstored.thread
  greatest := by
    constructor
    · exact ⟨_, mem_cons_self, rfl⟩
    · rintro seq ⟨ack, hack, rfl⟩
      rw [mem_singleton.mp hack]
      exact Int64.le_refl 0

/-- `UPDATE ... WHERE id`: the named row is rewritten and no other. -/
theorem find?_modify_named {hosts : RemoteHosts}
    (hfind : hosts.find? hostId = some host) (named : String)
    (f : CachedHost → CachedHost) (hf : ∀ row, (f row).id = row.id) :
    (hosts.modify (fun row => row.id = named) f hf).find? hostId =
      some (if named = hostId then f host else host) := by
  have hid : host.id = hostId := KeyedTable.key_of_find? hfind
  rw [KeyedTable.find?_modify, hfind]
  simp [hid, eq_comm]

/-- One call keeps the row of a host and what its period says of it. -/
theorem stored_apply {hosts : RemoteHosts}
    (hkept : ∃ host, hosts.find? hostId = some host ∧ period.StoredAs host)
    (call : AckCall) :
    ∃ host, (call.apply hosts).find? hostId = some host ∧
      (period.note hostId call).StoredAs host := by
  obtain ⟨host, hfind, hstored⟩ := hkept
  cases call with
  | updateAck named threadId throughSeq =>
    refine ⟨_, find?_modify_named hfind named _
      (CachedHost.acknowledge_id threadId throughSeq), ?_⟩
    by_cases hnamed : named = hostId
    · simpa [note, hnamed] using hstored.acknowledge threadId throughSeq
    · simpa [note, hnamed] using hstored
  | invalidate named expectedScheme =>
    by_cases hnamed : named = hostId
    · subst hnamed
      by_cases hscheme : host.cursorScheme = expectedScheme
      · refine ⟨host, ?_, ?_⟩
        · simp [AckCall.apply, invalidateAckIfCursorSchemeMismatch, hfind,
            hscheme]
        · simpa [note, ← hstored.scheme, hscheme] using hstored
      · refine ⟨host.resetAck expectedScheme, ?_, ?_⟩
        · simp only [AckCall.apply, invalidateAckIfCursorSchemeMismatch,
            hfind, Option.map_some, Option.getD_some, hscheme, if_false]
          simpa using find?_modify_named hfind named _
            (CachedHost.resetAck_id expectedScheme)
        · simpa [note, ← hstored.scheme, hscheme] using
            hstored.resetAck expectedScheme
    · refine ⟨host, ?_, by simpa [note, hnamed] using hstored⟩
      simp only [AckCall.apply, invalidateAckIfCursorSchemeMismatch]
      split
      · exact hfind
      · simpa [hnamed] using find?_modify_named hfind named _
          (CachedHost.resetAck_id expectedScheme)

theorem stored_run {hosts : RemoteHosts}
    (hkept : ∃ host, hosts.find? hostId = some host ∧ period.StoredAs host)
    (calls : List AckCall) :
    ∃ host, (calls.foldl AckCall.apply hosts).find? hostId = some host ∧
      (calls.foldl (note hostId) period).StoredAs host := by
  induction calls generalizing hosts period with
  | nil => exact hkept
  | cons call rest ih => exact ih (stored_apply hkept call)

/-- The stored cursor is valid exactly when the signed maximum belongs to the
thread's own greatest sequence. -/
theorem StoredAs.valid_iff (hstored : period.StoredAs host) :
    period.Valid host.cursor ↔ period.OwnLeads := by
  obtain ⟨⟨held, hheld, hvalue⟩, hbound⟩ := hstored.greatest
  have hback : host.cursor.2.toInt64 = host.lastAckSeq := by
    simp [CachedHost.cursor]
  constructor
  · rintro ⟨-, hgreatest⟩
    refine ⟨host.cursor.2, hgreatest, ?_⟩
    intro ack hack
    rw [hback]
    exact hbound ⟨ack, hack, rfl⟩
  · rintro ⟨seq, hgreatest, hleads⟩
    have hown : (period.latest.1, seq) ∈ period.acks := hgreatest.1
    have hlower : seq.toInt64 ≤ host.lastAckSeq := hbound ⟨_, hown, rfl⟩
    have hupper : host.lastAckSeq ≤ seq.toInt64 := hvalue ▸ hleads held hheld
    have hseq : host.cursor.2 = seq := by
      rw [CachedHost.cursor, Int64.le_antisymm hupper hlower]
      simp
    exact ⟨hstored.thread, hseq ▸ hgreatest⟩

end

end AckPeriod

/-- After any sequence of calls the cached cursor is the last thread with the
greatest sequence acknowledged for it exactly when no sequence of the period
exceeds that one. -/
theorem resume_cursor_valid_iff (hosts : RemoteHosts) (host : CachedHost)
    (calls : List AckCall) (hcached : hosts.find? host.id = some host) :
    (∃ cursor, cursorAfter hosts host.id calls = some cursor ∧
        (AckPeriod.after host calls).Valid cursor) ↔
      (AckPeriod.after host calls).OwnLeads := by
  obtain ⟨kept, hfind, hstored⟩ :=
    AckPeriod.stored_run ⟨host, hcached, AckPeriod.storedAs_start host⟩ calls
  have hcursor : cursorAfter hosts host.id calls = some kept.cursor := by
    rw [cursorAfter, hfind, Option.map_some]
  rw [hcursor]
  constructor
  · rintro ⟨cursor, hsome, hvalid⟩
    cases hsome
    exact hstored.valid_iff.mp hvalid
  · intro hleads
    exact ⟨kept.cursor, rfl, hstored.valid_iff.mpr hleads⟩

namespace AckSwitch

def host : CachedHost := ⟨"jetson", none, 0, "thread-seq-v1"⟩

def hosts : RemoteHosts := ⟨[host], by decide⟩

/-- A long thread, then a short one. -/
def switched : List AckCall :=
  [.updateAck "jetson" "long" 100, .updateAck "jetson" "short" 5]

theorem cursor_switched :
    cursorAfter hosts "jetson" switched = some (some "short", 100) := by
  decide

/-- The short thread is resumed from the long thread's position. -/
theorem cursor_of_another_thread :
    ¬ ∃ cursor, cursorAfter hosts "jetson" switched = some cursor ∧
      (AckPeriod.after host switched).Valid cursor := by
  rintro ⟨cursor, hcursor, -, hown, -⟩
  rw [cursor_switched] at hcursor
  cases hcursor
  have hnotOwn : ((AckPeriod.after host switched).latest.1, (100 : UInt64)) ∉
      (AckPeriod.after host switched).acks := by decide
  exact hnotOwn hown

/-- One thread only, acknowledged late and then early. -/
def repeated : List AckCall :=
  [.updateAck "jetson" "long" 100, .updateAck "jetson" "long" 5]

theorem cursor_of_one_thread :
    ∃ cursor, cursorAfter hosts "jetson" repeated = some cursor ∧
      (AckPeriod.after host repeated).Valid cursor := by
  apply (resume_cursor_valid_iff hosts host repeated (by decide)).mpr
  have hacks : ∀ ack ∈ (AckPeriod.after host repeated).acks,
      ack.2 ≤ 100 ∧ ack.2.toInt64 ≤ (100 : UInt64).toInt64 := by decide
  have hown : ((AckPeriod.after host repeated).latest.1, (100 : UInt64)) ∈
      (AckPeriod.after host repeated).acks := by decide
  exact ⟨100, ⟨hown, fun seq hseq => (hacks _ hseq).1⟩,
    fun ack hack => (hacks ack hack).2⟩

end AckSwitch
end Desktop
end Vellum
