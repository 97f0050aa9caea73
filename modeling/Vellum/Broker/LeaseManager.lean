/-
Writer leases.  A thread has at most one row; rows whose expiry has passed stay
until the next `acquire` or `current` deletes them, and a heartbeat does not
look at the expiry at all.  Instants are nanoseconds; the table stores them as
whole milliseconds.
-/
import Vellum.Library.KeyedTable
import Vellum.Broker.Protocol

namespace Vellum.Broker

open List KeyedTable

/-- `DateTime::timestamp_millis`. -/
def timestampMillis (instant : Int) : Int := instant / 1000000

/-- A row of `writer_leases`. -/
structure LeaseRow where
  threadId : String
  leaseId : String
  deviceId : String
  acquiredAtMs : Int
  expiresAtMs : Int
  generation : Nat

def LeaseRow.view (row : LeaseRow) : WriterLeaseView :=
  ⟨row.leaseId, row.deviceId, row.expiresAtMs * 1000000, row.generation⟩

def LeaseRow.extend (expires : Int) (row : LeaseRow) : LeaseRow :=
  { row with expiresAtMs := timestampMillis expires }

@[simp]
theorem LeaseRow.extend_threadId (expires : Int) (row : LeaseRow) :
    (row.extend expires).threadId = row.threadId := rfl

/-- The leases, the devices they may refer to, and how long a lease lasts. -/
structure LeaseManager where
  ttlSecs : Int
  devices : List String
  leases : KeyedTable LeaseRow.threadId

namespace LeaseManager

section

variable (manager : LeaseManager) (threadId deviceId : String)

def ensureDevice (deviceId : String) : LeaseManager :=
  if deviceId ∈ manager.devices then manager
  else { manager with devices := manager.devices ++ [deviceId] }

def expiry (now : Int) : Int :=
  now + manager.ttlSecs * 1000000000

/-- `DELETE FROM writer_leases WHERE expires_at_ms < now`. -/
def live (now : Int) : KeyedTable LeaseRow.threadId :=
  manager.leases.retain fun row => ¬ row.expiresAtMs < timestampMillis now

/-- One transaction.  A constraint that fails rolls the deletion back as
well. -/
def acquire (now : Int) (threadId deviceId leaseId : String) :
    Except StoreError (Except WriterLeaseView WriterLeaseView) ×
      LeaseManager :=
  let expires := manager.expiry now
  let live := manager.live now
  match live.find? threadId with
  | some holder =>
    if holder.deviceId ≠ deviceId then
      (.ok (.error holder.view), { manager with leases := live })
    else
      (.ok (.ok ⟨holder.leaseId, deviceId, expires, holder.generation⟩),
        { manager with
          leases := live.modify (fun row => row.threadId = threadId)
            (LeaseRow.extend expires) (LeaseRow.extend_threadId expires) })
  | none =>
    if leaseId ∈ live.rows.map LeaseRow.leaseId then
      (.error ⟨"sqlite error: UNIQUE constraint failed: " ++
        "writer_leases.lease_id"⟩, manager)
    else if deviceId ∉ manager.devices then
      (.error ⟨"sqlite error: FOREIGN KEY constraint failed"⟩, manager)
    else
      (.ok (.ok ⟨leaseId, deviceId, expires, 1⟩),
        { manager with
          leases := live.put ⟨threadId, leaseId, deviceId,
            timestampMillis now, timestampMillis expires, 1⟩ })

/-- The columns a heartbeat and a release ask for. -/
def names (threadId deviceId leaseId : String) (row : LeaseRow) : Bool :=
  row.threadId = threadId ∧ row.deviceId = deviceId ∧ row.leaseId = leaseId

def heartbeat (now : Int) (threadId deviceId leaseId : String) :
    Option WriterLeaseView × LeaseManager :=
  let expires := manager.expiry now
  if manager.leases.rows.any (names threadId deviceId leaseId) then
    let leases := manager.leases.modify (names threadId deviceId leaseId)
      (LeaseRow.extend expires) (LeaseRow.extend_threadId expires)
    (some ⟨leaseId, deviceId, expires,
      ((leases.find? threadId).map LeaseRow.generation).getD 1⟩,
      { manager with leases })
  else (none, manager)

def current (now : Int) (threadId : String) :
    Option WriterLeaseView × LeaseManager :=
  let live := manager.live now
  ((live.find? threadId).map LeaseRow.view, { manager with leases := live })

def release (threadId deviceId leaseId : String) : Bool × LeaseManager :=
  (manager.leases.rows.any (names threadId deviceId leaseId),
    { manager with
      leases := manager.leases.retain fun row =>
        !names threadId deviceId leaseId row })

/-- A call, with what the clock and the id generator give it. -/
inductive Call where
  | ensureDevice (deviceId : String)
  | acquire (threadId deviceId leaseId : String)
  | heartbeat (threadId deviceId leaseId : String)
  | current (threadId : String)
  | release (threadId deviceId leaseId : String)

inductive Answer where
  | done
  | acquired (result : Except StoreError (Except WriterLeaseView WriterLeaseView))
  | lease (view : Option WriterLeaseView)
  | released (changed : Bool)

def perform (now : Int) : Call → Answer × LeaseManager
  | .ensureDevice deviceId => (.done, manager.ensureDevice deviceId)
  | .acquire threadId deviceId leaseId =>
    let (result, next) := manager.acquire now threadId deviceId leaseId
    (.acquired result, next)
  | .heartbeat threadId deviceId leaseId =>
    let (view, next) := manager.heartbeat now threadId deviceId leaseId
    (.lease view, next)
  | .current threadId =>
    let (view, next) := manager.current now threadId
    (.lease view, next)
  | .release threadId deviceId leaseId =>
    let (changed, next) := manager.release threadId deviceId leaseId
    (.released changed, next)

/-- A call that was made, and its answer. -/
structure Record where
  now : Int
  call : Call
  answer : Answer

/-- The calls in order, each on what the ones before it left. -/
def records (manager : LeaseManager) : List (Int × Call) → List Record
  | [] => []
  | (now, call) :: rest =>
    let (answer, next) := manager.perform now call
    ⟨now, call, answer⟩ :: next.records rest

/-- The device was granted the lease of the thread. -/
def Record.Grants (record : Record) : Prop :=
  ∃ leaseId view, record.call = .acquire threadId deviceId leaseId ∧
    record.answer = .acquired (.ok (.ok view))

/-- The device holds the lease of the thread until the instant: it was granted
or extended. -/
def Record.Holds (expires : Int) (record : Record) : Prop :=
  ∃ leaseId view, view.expiresAt = expires ∧
    (record.call = .acquire threadId deviceId leaseId ∧
        record.answer = .acquired (.ok (.ok view)) ∨
      record.call = .heartbeat threadId deviceId leaseId ∧
        record.answer = .lease (some view))

/-- The device gave the lease of the thread back. -/
def Record.Releases (record : Record) : Prop :=
  ∃ leaseId, record.call = .release threadId deviceId leaseId ∧
    record.answer = .released true

/-- The stored lease of the thread is the device's and lasts at least until the
instant. -/
def Keeps (expires : Int) : Prop :=
  ∃ row, manager.leases.find? threadId = some row ∧
    row.deviceId = deviceId ∧ timestampMillis expires ≤ row.expiresAtMs

end

theorem timestampMillis_le {first second : Int} (hle : first ≤ second) :
    timestampMillis first ≤ timestampMillis second :=
  Int.ediv_le_ediv (by decide) hle

theorem lt_of_timestampMillis_lt {first second : Int}
    (hlt : timestampMillis first < timestampMillis second) :
    first < second := by
  by_contra hle
  exact absurd (timestampMillis_le (Int.not_lt.mp hle)) (Int.not_le.mpr hlt)

theorem find?_live (manager : LeaseManager) (now : Int) (threadId : String) :
    (manager.live now).find? threadId =
      (manager.leases.find? threadId).filter fun row =>
        ¬ row.expiresAtMs < timestampMillis now :=
  manager.leases.find?_retain _ threadId

section

variable {manager : LeaseManager} {threadId deviceId : String} {expires : Int}

/-- Deleting the expired rows deletes a kept lease only when its expiry has
passed. -/
theorem Keeps.live (hkeeps : manager.Keeps threadId deviceId expires)
    (now : Int) :
    expires < now ∨ ∃ row, (manager.live now).find? threadId = some row ∧
      row.deviceId = deviceId ∧ timestampMillis expires ≤ row.expiresAtMs := by
  obtain ⟨row, hrow, hdevice, hlong⟩ := hkeeps
  by_cases hexpired : row.expiresAtMs < timestampMillis now
  · exact Or.inl (lt_of_timestampMillis_lt (Int.lt_of_le_of_lt hlong hexpired))
  · refine Or.inr ⟨row, ?_, hdevice, hlong⟩
    rw [find?_live, hrow]
    simpa using hexpired

theorem acquire_cases (manager : LeaseManager) (now : Int)
    (threadId deviceId leaseId : String) :
    let acquired := manager.acquire now threadId deviceId leaseId
    let expires := manager.expiry now
    (∃ holder, (manager.live now).find? threadId = some holder ∧
      holder.deviceId ≠ deviceId ∧
      acquired = (.ok (.error holder.view),
        { manager with leases := manager.live now })) ∨
    (∃ holder, (manager.live now).find? threadId = some holder ∧
      holder.deviceId = deviceId ∧
      acquired =
        (.ok (.ok ⟨holder.leaseId, deviceId, expires, holder.generation⟩),
          { manager with
            leases := (manager.live now).modify
              (fun row => row.threadId = threadId) (LeaseRow.extend expires)
              (LeaseRow.extend_threadId expires) })) ∨
    (∃ error, acquired = (.error error, manager)) ∨
    (manager.live now).find? threadId = none ∧
      acquired = (.ok (.ok ⟨leaseId, deviceId, expires, 1⟩),
        { manager with
          leases := (manager.live now).put ⟨threadId, leaseId, deviceId,
            timestampMillis now, timestampMillis expires, 1⟩ }) := by
  intro acquired expires
  cases hfind : (manager.live now).find? threadId with
  | some holder =>
    by_cases hdevice : holder.deviceId = deviceId
    · refine Or.inr (Or.inl ⟨holder, rfl, hdevice, ?_⟩)
      simp [acquired, expires, acquire, hfind, hdevice]
    · refine Or.inl ⟨holder, rfl, hdevice, ?_⟩
      simp [acquired, acquire, hfind, hdevice]
  | none =>
    by_cases hunique : leaseId ∈ (manager.live now).rows.map LeaseRow.leaseId
    · right; right; left
      simp only [acquired, acquire, hfind]
      exact ⟨_, if_pos hunique⟩
    · by_cases hknown : deviceId ∈ manager.devices
      · refine Or.inr (Or.inr (Or.inr ⟨rfl, ?_⟩))
        simp only [acquired, acquire, hfind]
        rw [if_neg hunique, if_neg (not_not.mpr hknown)]
      · right; right; left
        simp only [acquired, acquire, hfind]
        rw [if_neg hunique]
        exact ⟨_, if_pos hknown⟩

/-- Extending rows keeps a kept lease, when the new expiry is no earlier. -/
theorem Keeps.modify {later : Int} {leases : KeyedTable LeaseRow.threadId}
    {row : LeaseRow} (hrow : leases.find? threadId = some row)
    (hdevice : row.deviceId = deviceId)
    (hlong : timestampMillis expires ≤ row.expiresAtMs)
    (hlater : expires ≤ later) (p : LeaseRow → Bool) :
    Keeps { manager with
      leases := leases.modify p (LeaseRow.extend later)
        (LeaseRow.extend_threadId later) } threadId deviceId expires := by
  refine ⟨if p row then row.extend later else row, ?_, ?_, ?_⟩
  · rw [find?_modify, hrow]
    rfl
  · split
    · exact hdevice
    · exact hdevice
  · split
    · exact timestampMillis_le hlater
    · exact hlong

/-- While a device keeps the lease, an `acquire` leaves it with the device and
grants it to nobody else. -/
theorem Keeps.acquire {now : Int}
    (hkeeps : manager.Keeps threadId deviceId expires)
    (hexpiry : expires ≤ manager.expiry now)
    (otherThread otherDevice leaseId : String) :
    let acquired := manager.acquire now otherThread otherDevice leaseId
    expires < now ∨ acquired.2.Keeps threadId deviceId expires ∧
      (otherThread = threadId → otherDevice ≠ deviceId →
        ∀ view, acquired.1 ≠ .ok (.ok view)) := by
  intro acquired
  rcases hkeeps.live now with hpast | ⟨row, hrow, hdevice, hlong⟩
  · exact Or.inl hpast
  right
  rcases manager.acquire_cases now otherThread otherDevice leaseId with
    ⟨holder, hfind, hother, heq⟩ | ⟨holder, hfind, hsame, heq⟩ |
    ⟨error, heq⟩ | ⟨hfree, heq⟩
  · rw [show acquired = _ from heq]
    exact ⟨⟨row, hrow, hdevice, hlong⟩, by simp⟩
  · rw [show acquired = _ from heq]
    refine ⟨Keeps.modify hrow hdevice hlong hexpiry _, ?_⟩
    rintro rfl hne
    rw [hrow, Option.some.injEq] at hfind
    exact absurd (hsame.symm.trans (hfind ▸ hdevice)) hne
  · rw [show acquired = _ from heq]
    exact ⟨hkeeps, by simp⟩
  · have hthread : threadId ≠ otherThread := by
      rintro rfl
      rw [hrow] at hfree
      cases hfree
    rw [show acquired = _ from heq]
    refine ⟨⟨row, ?_, hdevice, hlong⟩, fun heq => absurd heq.symm hthread⟩
    exact (find?_put_of_ne _ _ hthread).trans hrow

/-- A release removes the lease only of the device that names it. -/
theorem Keeps.release (hkeeps : manager.Keeps threadId deviceId expires)
    (otherThread otherDevice leaseId : String) :
    let released := manager.release otherThread otherDevice leaseId
    otherThread = threadId ∧ otherDevice = deviceId ∧ released.1 = true ∨
      released.2.Keeps threadId deviceId expires := by
  obtain ⟨row, hrow, hdevice, hlong⟩ := hkeeps
  have hkey := key_of_find? hrow
  have hmem := ((manager.leases.find?_eq_some_iff _ _).mp hrow).1
  by_cases hnames : names otherThread otherDevice leaseId row = true
  · have hcolumns := hnames
    simp only [names, decide_eq_true_eq] at hcolumns
    obtain ⟨hthread, hholder, -⟩ := hcolumns
    exact Or.inl ⟨hthread.symm.trans hkey, hholder.symm.trans hdevice,
      any_eq_true.mpr ⟨row, hmem, hnames⟩⟩
  · refine Or.inr ⟨row, ?_, hdevice, hlong⟩
    refine (manager.leases.find?_retain _ threadId).trans ?_
    rw [hrow]
    simpa using hnames

/-- The record of a call on the manager. -/
def record (manager : LeaseManager) (now : Int) (call : Call) : Record :=
  ⟨now, call, (manager.perform now call).1⟩

/-- The manager after a call. -/
def after (manager : LeaseManager) (now : Int) (call : Call) : LeaseManager :=
  (manager.perform now call).2

theorem records_cons (manager : LeaseManager) (now : Int) (call : Call)
    (rest : List (Int × Call)) :
    manager.records ((now, call) :: rest) =
      manager.record now call :: (manager.after now call).records rest := rfl

theorem after_ttlSecs (manager : LeaseManager) (now : Int) (call : Call) :
    (manager.after now call).ttlSecs = manager.ttlSecs := by
  cases call with
  | ensureDevice deviceId =>
    simp only [after, perform, ensureDevice]
    split <;> rfl
  | acquire threadId deviceId leaseId =>
    simp only [after, perform]
    rcases manager.acquire_cases now threadId deviceId leaseId with
      ⟨_, _, _, heq⟩ | ⟨_, _, _, heq⟩ | ⟨_, heq⟩ | ⟨_, heq⟩ <;> rw [heq]
  | heartbeat =>
    simp only [after, perform, heartbeat]
    split <;> rfl
  | current => rfl
  | release => rfl

/-- One call while a device keeps the lease: the expiry has passed, the device
gives the lease back, or it keeps it and nobody else is granted it. -/
theorem Keeps.step {now : Int}
    (hkeeps : manager.Keeps threadId deviceId expires)
    (hexpiry : expires ≤ manager.expiry now) (call : Call) :
    expires < now ∨ (manager.record now call).Releases threadId deviceId ∨
      (manager.after now call).Keeps threadId deviceId expires ∧
        ∀ other ≠ deviceId,
          ¬ (manager.record now call).Grants threadId other := by
  have hnoGrant : (∀ thread device lease,
      call ≠ .acquire thread device lease) → ∀ other ≠ deviceId,
        ¬ (manager.record now call).Grants threadId other := by
    rintro hcall other - ⟨lease, view, heq, -⟩
    exact hcall _ _ _ heq
  cases call with
  | ensureDevice device =>
    refine Or.inr (Or.inr ⟨?_, hnoGrant (by simp)⟩)
    simp only [after, perform, ensureDevice]
    split
    · exact hkeeps
    · exact hkeeps
  | acquire thread device lease =>
    rcases hkeeps.acquire hexpiry thread device lease with
      hpast | ⟨hnext, hrefused⟩
    · exact Or.inl hpast
    refine Or.inr (Or.inr ⟨hnext, ?_⟩)
    rintro other hother ⟨lease', view, hcall, hanswer⟩
    injection hcall with hthread hdevice
    injection hanswer with hresult
    exact hrefused hthread (hdevice ▸ hother) view hresult
  | heartbeat thread device lease =>
    refine Or.inr (Or.inr ⟨?_, hnoGrant (by simp)⟩)
    simp only [after, perform, heartbeat]
    split
    · obtain ⟨row, hrow, hdevice, hlong⟩ := hkeeps
      exact Keeps.modify hrow hdevice hlong hexpiry _
    · exact hkeeps
  | current thread =>
    rcases hkeeps.live now with hpast | hlive
    · exact Or.inl hpast
    · exact Or.inr (Or.inr ⟨hlive, hnoGrant (by simp)⟩)
  | release thread device lease =>
    rcases hkeeps.release thread device lease with
      ⟨rfl, rfl, hchanged⟩ | hnext
    · refine Or.inr (Or.inl ⟨lease, rfl, ?_⟩)
      simp [record, perform, hchanged]
    · exact Or.inr (Or.inr ⟨hnext, hnoGrant (by simp)⟩)

/-- A call that grants or extends a lease leaves it with the device, until an
expiry counted from the call. -/
theorem keeps_of_holds {now : Int} {call : Call}
    (hholds : (manager.record now call).Holds threadId deviceId expires) :
    (manager.after now call).Keeps threadId deviceId expires ∧
      expires = manager.expiry now := by
  obtain ⟨lease, view, rfl, ⟨hcall, hanswer⟩ | ⟨hcall, hanswer⟩⟩ := hholds
  · obtain rfl : call = _ := hcall
    have hresult : (manager.acquire now threadId deviceId lease).1 =
        .ok (.ok view) := Answer.acquired.inj hanswer
    simp only [after, perform]
    rcases manager.acquire_cases now threadId deviceId lease with
      ⟨_, _, _, heq⟩ | ⟨holder, hfind, hsame, heq⟩ | ⟨_, heq⟩ | ⟨_, heq⟩
    · rw [heq] at hresult
      simp at hresult
    · rw [heq] at hresult ⊢
      simp only [Except.ok.injEq] at hresult
      subst hresult
      have hkey := key_of_find? hfind
      refine ⟨⟨holder.extend (manager.expiry now), ?_, hsame,
        Int.le_refl _⟩, rfl⟩
      simp [find?_modify, hfind, hkey]
    · rw [heq] at hresult
      cases hresult
    · rw [heq] at hresult ⊢
      simp only [Except.ok.injEq] at hresult
      subst hresult
      exact ⟨⟨_, find?_put_self _ _, rfl, Int.le_refl _⟩, rfl⟩
  · obtain rfl : call = _ := hcall
    have hview : (manager.heartbeat now threadId deviceId lease).1 =
        some view := Answer.lease.inj hanswer
    simp only [heartbeat] at hview
    simp only [after, perform, heartbeat]
    split at hview
    · rename_i hany
      rw [if_pos hany]
      simp only [Option.some.injEq] at hview
      subst hview
      obtain ⟨row, hmem, hnames⟩ := any_eq_true.mp hany
      have hcolumns := hnames
      simp only [names, decide_eq_true_eq] at hcolumns
      obtain ⟨hthread, hdevice, -⟩ := hcolumns
      have hrow := (manager.leases.find?_eq_some_iff threadId row).mpr
        ⟨hmem, hthread⟩
      refine ⟨⟨row.extend (manager.expiry now), ?_, hdevice,
        Int.le_refl _⟩, rfl⟩
      simp [find?_modify, hrow, hnames]
    · cases hview

theorem records_now (manager : LeaseManager) (calls : List (Int × Call)) :
    (manager.records calls).map Record.now = calls.map Prod.fst := by
  induction calls generalizing manager with
  | nil => rfl
  | cons head rest ih =>
    rw [records_cons, map_cons, map_cons, ih]
    rfl

/-- What follows a stretch of records is again a run, from the manager reached
there. -/
theorem records_split {calls : List (Int × Call)} {first rest : List Record}
    (hrecords : manager.records calls = first ++ rest) :
    ∃ later, rest =
      LeaseManager.records later (calls.drop first.length) := by
  induction first generalizing manager calls with
  | nil => exact ⟨manager, hrecords.symm⟩
  | cons head tail ih =>
    cases calls with
    | nil => cases hrecords
    | cons call calls =>
      rw [records_cons, cons_append, List.cons.injEq] at hrecords
      exact ih hrecords.2

/-- A run that starts while a device keeps the lease grants it to another one
only after the expiry has passed or the device has given it back. -/
theorem Keeps.run {clock : Int}
    (hkeeps : manager.Keeps threadId deviceId expires)
    (hexpiry : expires ≤ manager.expiry clock) {calls : List (Int × Call)}
    (hclock : (clock :: calls.map Prod.fst).Pairwise (· ≤ ·))
    {between rest : List Record} {granted : Record}
    (hrecords : manager.records calls = between ++ granted :: rest)
    {other : String} (hother : other ≠ deviceId)
    (hgranted : granted.Grants threadId other) :
    expires < granted.now ∨
      ∃ record ∈ between, record.Releases threadId deviceId := by
  induction between generalizing manager clock calls with
  | nil =>
    cases calls with
    | nil => cases hrecords
    | cons head calls =>
      rw [records_cons, nil_append, List.cons.injEq] at hrecords
      rw [map_cons, pairwise_cons] at hclock
      have hnow : expires ≤ manager.expiry head.1 := by
        have hle := hclock.1 head.1 mem_cons_self
        unfold expiry at hexpiry ⊢
        omega
      rw [← hrecords.1] at hgranted ⊢
      rcases hkeeps.step hnow head.2 with hpast | ⟨lease, hcall, -⟩ |
        ⟨-, hrefused⟩
      · exact Or.inl hpast
      · obtain ⟨_, _, hacquire, -⟩ := hgranted
        rw [hcall] at hacquire
        cases hacquire
      · exact absurd hgranted (hrefused other hother)
  | cons record between ih =>
    cases calls with
    | nil => cases hrecords
    | cons head calls =>
      have hnows := congrArg (List.map Record.now) hrecords
      rw [records_now] at hnows
      rw [records_cons, cons_append, List.cons.injEq] at hrecords
      rw [map_cons, pairwise_cons] at hclock
      have hnow : expires ≤ manager.expiry head.1 := by
        have hle := hclock.1 head.1 mem_cons_self
        unfold expiry at hexpiry ⊢
        omega
      rcases hkeeps.step hnow head.2 with hpast | hreleased | ⟨hnext, -⟩
      · -- the clock does not go back, so it is past for the grant too
        left
        have hmem : granted.now ∈ calls.map Prod.fst := by
          have htail := congrArg List.tail hnows
          simp only [map_cons, cons_append, tail_cons]
            at htail
          rw [htail, map_append, map_cons]
          exact mem_append_right _ mem_cons_self
        have hle := (pairwise_cons.mp hclock.2).1 granted.now hmem
        omega
      · rw [hrecords.1] at hreleased
        exact Or.inr ⟨record, mem_cons_self, hreleased⟩
      · have hnextExpiry : expires ≤
            (manager.after head.1 head.2).expiry head.1 := by
          rw [expiry, after_ttlSecs]
          exact hnow
        rcases ih hnext hnextExpiry hclock.2 hrecords.2 with
          hpast | ⟨found, hfound, hreleased⟩
        · exact Or.inl hpast
        · exact Or.inr ⟨found, mem_cons_of_mem _ hfound, hreleased⟩

theorem any_names_eq_false {leaseId : String}
    (hstale : ∀ row, manager.leases.find? threadId = some row →
      row.leaseId ≠ leaseId) {row : LeaseRow}
    (hrow : row ∈ manager.leases.rows) :
    names threadId deviceId leaseId row = false := by
  simp only [names, decide_eq_false_iff_not]
  rintro ⟨hthread, -, hlease⟩
  exact hstale row
    ((manager.leases.find?_eq_some_iff _ _).mpr ⟨hrow, hthread⟩) hlease

end

/-- With a clock that does not go back: once a device was granted a lease, or
extended it, no other device is granted one on that thread before the expiry
has passed or the device has given it back; and a heartbeat or a release with a
lease id that is not the stored one leaves every lease as it is. -/
theorem lease_exclusive (manager : LeaseManager) (calls : List (Int × Call))
    (hclock : (calls.map Prod.fst).Pairwise (· ≤ ·)) :
    (∀ before held between granted rest threadId deviceId other expires,
      manager.records calls =
          before ++ held :: (between ++ granted :: rest) →
        held.Holds threadId deviceId expires →
          granted.Grants threadId other → other ≠ deviceId →
            expires < granted.now ∨
              ∃ record ∈ between, record.Releases threadId deviceId) ∧
    ∀ (reached : LeaseManager) (now : Int) threadId deviceId leaseId,
      (∀ row, reached.leases.find? threadId = some row →
        row.leaseId ≠ leaseId) →
      (reached.heartbeat now threadId deviceId leaseId).2.leases =
          reached.leases ∧
        (reached.release threadId deviceId leaseId).2.leases =
          reached.leases := by
  refine ⟨?_, ?_⟩
  · intro before held between granted rest threadId deviceId other expires
      hrecords hholds hgranted hother
    obtain ⟨middle, hmiddle⟩ := records_split hrecords
    have hclockAfter : ((calls.drop before.length).map Prod.fst).Pairwise
        (· ≤ ·) := by
      rw [map_drop]
      exact hclock.sublist (drop_sublist _ _)
    cases hcalls : calls.drop before.length with
    | nil =>
      rw [hcalls] at hmiddle
      cases hmiddle
    | cons head tail =>
      rw [hcalls, records_cons, List.cons.injEq] at hmiddle
      rw [hcalls, map_cons] at hclockAfter
      rw [hmiddle.1] at hholds
      obtain ⟨hkeeps, hexpires⟩ := keeps_of_holds hholds
      have hexpiry : expires ≤
          (middle.after head.1 head.2).expiry head.1 := by
        apply Int.le_of_eq
        rw [hexpires, expiry, expiry, after_ttlSecs]
      exact hkeeps.run hexpiry hclockAfter hmiddle.2.symm hother hgranted
  · intro reached now threadId deviceId leaseId hstale
    have hnames : ∀ row ∈ reached.leases.rows,
        names threadId deviceId leaseId row = false :=
      fun row hrow => any_names_eq_false hstale hrow
    constructor
    · have hnone : reached.leases.rows.any
          (names threadId deviceId leaseId) = false := by
        rw [any_eq_false]
        intro row hrow
        simp [hnames row hrow]
      simp [heartbeat, hnone]
    · have hall : reached.leases.rows.filter
          (fun row => !names threadId deviceId leaseId row) =
            reached.leases.rows := by
        apply filter_eq_self.mpr
        intro row hrow
        simp [hnames row hrow]
      simp [release, KeyedTable.retain, hall]

namespace Handover

def manager : LeaseManager := ⟨30, ["dev-a", "dev-b"], .empty⟩

/-- One device acquires and extends, another one asks before and after the
expiry. -/
def calls : List (Int × Call) :=
  [(0, .acquire "thr_1" "dev-a" "lease_a"),
    (10000000000, .heartbeat "thr_1" "dev-a" "lease_a"),
    (39000000000, .acquire "thr_1" "dev-b" "lease_b"),
    (41000000000, .acquire "thr_1" "dev-b" "lease_c")]

theorem granted_after_expiry :
    ∃ before held between granted rest,
      manager.records calls =
        before ++ held :: (between ++ granted :: rest) ∧
      held.Holds "thr_1" "dev-a" 40000000000 ∧
      granted.Grants "thr_1" "dev-b" ∧
      (40000000000 < granted.now ∨
        ∃ record ∈ between, record.Releases "thr_1" "dev-a") := by
  have hholds : (Record.mk 10000000000
      (.heartbeat "thr_1" "dev-a" "lease_a")
      (.lease (some ⟨"lease_a", "dev-a", 40000000000, 1⟩))).Holds "thr_1"
        "dev-a" 40000000000 := ⟨"lease_a", _, rfl, Or.inr ⟨rfl, rfl⟩⟩
  have hgrants : (Record.mk 41000000000 (.acquire "thr_1" "dev-b" "lease_c")
      (.acquired (.ok (.ok ⟨"lease_c", "dev-b", 71000000000, 1⟩)))).Grants
        "thr_1" "dev-b" := ⟨"lease_c", _, rfl, rfl⟩
  refine ⟨[_], _, [_], _, [], rfl, hholds, hgrants, ?_⟩
  exact (lease_exclusive manager calls (by decide)).1 [_] _ [_] _ [] "thr_1"
    "dev-a" "dev-b" 40000000000 rfl hholds hgrants (by decide)

end Handover

end LeaseManager

end Vellum.Broker
