import CommPlatform.Core.LockedPool
import CommPlatform.Core.Runs
import CommPlatform.L4Server.Devices

/-!
# Handing out one-time prekeys

Runs of the transactions `register_device`, `replenish`, `claim` and `revoke`
of all callers. Claims overlap: each statement of a claim is a step of its
own, the rows it locked stay locked until it ends, and another claim skips
them. A deleted row counts as a locked one until the claim commits, so the
`DELETE` stands in the step that commits. A statement that has to wait for a
row (the `DELETE` of `revoke`) is one that runs when the row is free.
-/
namespace CommPlatform.Server

open CommPlatform.Core
open List (getElem?_eq_none mem_append mem_filter mem_map mem_singleton nodup_nil)
open Function (comp_def update_eq_self update_of_ne update_self)

structure ClaimRun where
  db : Tables
  claims : List (Option ClaimTx)
  answers : List (List Bundle)

namespace ClaimRun

def claim (r : ClaimRun) (i : Nat) : Option ClaimTx := r.claims[i]?.join

/-- An open claim has the row locked. -/
def Locked (r : ClaimRun) (model : Model) (row : OneTimePrekey) : Prop :=
  r.claims.any (·.any fun tx => row ∈ tx.taken model) = true

instance (r : ClaimRun) (model : Model) : DecidablePred (r.Locked model) :=
  fun _ => inferInstanceAs (Decidable (_ = true))

/-- The keys handed out so far. -/
def out (r : ClaimRun) (model : Model) : List OneTimePrekey := r.answers.flatMap (handedOut model)

/-- The upload carries no key that was handed out. -/
def Unclaimed (r : ClaimRun) (device : Uuid) (payload : PrekeyReplenishIn) : Prop :=
  ∀ model, ∀ row ∈ (payload.otpks model).rows device, row ∉ r.out model

/-- One transaction, or one statement of an open claim. Uploads are those `allowed` admits. -/
inductive Step (S : Settings) (allowed : ClaimRun → Uuid → PrekeyReplenishIn → Prop) :
    ClaimRun → ClaimRun → Prop
  | register {r : ClaimRun} (user id : Uuid) (payload : RegisterDeviceIn) (db : Tables)
      (fresh : id ∉ r.db.deviceIds) (h : registerDevice S r.db user id payload = .ok db) :
      Step S allowed r { r with db := db }
  | replenish {r : ClaimRun} (device : Uuid) (payload : PrekeyReplenishIn) (db : Tables) (count : Nat)
      (known : device ∈ r.db.deviceIds) (hallowed : allowed r device payload)
      (h : Server.replenish r.db device payload = .ok (db, count)) :
      Step S allowed r { r with db := db }
  | revoke {r : ClaimRun} (user device : Uuid) (db : Tables)
      (unlocked : ∀ model row, r.Locked model row → row.device ≠ device)
      (h : Server.revoke r.db user device = .ok db) : Step S allowed r { r with db := db }
  | begin {r : ClaimRun} (user : Uuid) (deviceIds : Option (List Uuid)) :
      Step S allowed r { r with claims := r.claims ++ [some (beginClaim r.db user deviceIds)] }
  | take {r : ClaimRun} (i : Nat) (tx : ClaimTx) (model : Model) (device : Uuid) (rest : List Uuid)
      (hopen : r.claim i = some tx) (next : tx.left model = device :: rest)
      (order : model = .pqOneTimePrekey → tx.left .oneTimePrekey = []) :
      Step S allowed r { r with claims := r.claims.set i (some
        (tx.take model rest (firstUnlocked (r.db.oneTime model) (r.Locked model) device))) }
  | commit {r : ClaimRun} (i : Nat) (tx : ClaimTx) (hopen : r.claim i = some tx)
      (done : ∀ model, tx.left model = []) :
      Step S allowed r ⟨deleteTaken r.db tx, r.claims.set i none, r.answers ++ [tx.bundles]⟩
  | abort {r : ClaimRun} (i : Nat) : Step S allowed r { r with claims := r.claims.set i none }

end ClaimRun

def claimSystem (S : Settings) (allowed : ClaimRun → Uuid → PrekeyReplenishIn → Prop) :
    System ClaimRun where
  init r := r.db.deviceIds.Nodup ∧
    (∀ model, ((r.db.oneTime model).map OneTimePrekey.key).Nodup ∧
      ∀ row ∈ r.db.oneTime model, row.device ∈ r.db.deviceIds) ∧
    r.claims = [] ∧ r.answers = []
  step := ClaimRun.Step S allowed

/-! ## The pool of each table -/

namespace ClaimRun

variable {r : ClaimRun} {model : Model} {i : Nat}

def pool (r : ClaimRun) (model : Model) : LockedPool Nat OneTimePrekey where
  rows := r.db.oneTime model
  held i := (r.claim i).elim [] (·.taken model)
  out := r.out model

variable {tx : ClaimTx}

theorem claim_set (h : i < r.claims.length) (c : Option ClaimTx) :
    ({ r with claims := r.claims.set i c } : ClaimRun).claim = Function.update r.claim i c := by
  funext j
  by_cases hj : j = i
  · subst hj
    simp [claim, h]
  · rw [update_of_ne hj]
    simp [claim, List.getElem?_set_ne (Ne.symm hj)]

theorem lt_of_claim (h : r.claim i = some tx) : i < r.claims.length := by
  by_contra hn
  simp [claim, getElem?_eq_none (Nat.le_of_not_lt hn)] at h

theorem mem_of_claim (h : r.claim i = some tx) : some tx ∈ r.claims :=
  List.mem_of_getElem? (Option.join_eq_some_iff.mp h)

variable {row : OneTimePrekey}

theorem held_eq (h : r.claim i = some tx) : (r.pool model).held i = tx.taken model := by
  simp [pool, h]

theorem locked_of_held (h : row ∈ (r.pool model).held i) : r.Locked model row := by
  cases hc : r.claim i with
  | none => simp [pool, hc] at h
  | some tx =>
    rw [held_eq hc] at h
    exact List.any_eq_true.mpr ⟨some tx, mem_of_claim hc, by simpa using h⟩

theorem pool_tables (r : ClaimRun) (db : Tables) (model : Model) :
    ({ r with db := db } : ClaimRun).pool model = { r.pool model with rows := db.oneTime model } :=
  rfl

theorem pool_insert (r : ClaimRun) (model : Model) (new : List OneTimePrekey) :
    { r.pool model with rows := insertIgnoringConflicts (r.db.oneTime model) new } =
      (r.pool model).insert OneTimePrekey.key new := by
  simp only [LockedPool.insert, insertIgnoringConflicts, pool, LockedPool.mk.injEq, and_true,
    List.append_cancel_left_eq]
  exact List.filter_congr fun row _ => decide_eq_decide.mpr Iff.rfl

theorem pool_begin (h : tx.taken model = []) :
    ({ r with claims := r.claims ++ [some tx] } : ClaimRun).pool model = r.pool model := by
  have hheld : ∀ i, (({ r with claims := r.claims ++ [some tx] } : ClaimRun).claim i).elim []
      (·.taken model) = (r.claim i).elim [] (·.taken model) := by
    intro i
    simp only [claim]
    rcases Nat.lt_trichotomy i r.claims.length with hi | rfl | hi
    · rw [List.getElem?_append_left hi]
    · simp [h]
    · rw [getElem?_eq_none (by simp; omega), getElem?_eq_none (by omega)]
  rw [pool, funext hheld]
  rfl

theorem pool_set (h : i < r.claims.length) (tx : ClaimTx) :
    ({ r with claims := r.claims.set i (some tx) } : ClaimRun).pool model =
      { r.pool model with held := Function.update (r.pool model).held i (tx.taken model) } := by
  rw [pool, claim_set h]
  simp only [pool, LockedPool.mk.injEq, true_and]
  refine ⟨funext fun j => ?_, rfl⟩
  by_cases hj : j = i
  · subst hj
    simp
  · simp [hj]

theorem pool_end (i : Nat) :
    ({ r with claims := r.claims.set i none } : ClaimRun).pool model = (r.pool model).abort i := by
  by_cases h : i < r.claims.length
  · rw [pool, claim_set h]
    simp only [pool, LockedPool.abort, LockedPool.mk.injEq, true_and]
    refine ⟨funext fun j => ?_, rfl⟩
    by_cases hj : j = i
    · subst hj
      simp
    · simp [hj]
  · -- there is no such claim
    have hnone : r.claim i = none := by
      simp [claim, getElem?_eq_none (Nat.le_of_not_lt h)]
    rw [List.set_eq_of_length_le (Nat.le_of_not_lt h)]
    have hheld : (r.pool model).held i = [] := by simp [pool, hnone]
    rw [LockedPool.abort, ← hheld, update_eq_self]

/-- Device ids are unique and every key belongs to a device; each pool keeps its own invariant. -/
structure Inv (r : ClaimRun) : Prop where
  ids : r.db.deviceIds.Nodup
  owners : ∀ model, ∀ row ∈ r.db.oneTime model, row.device ∈ r.db.deviceIds
  handed : ∀ model, ∀ row ∈ r.out model, row.device ∈ r.db.deviceIds
  targets : ∀ i tx, r.claim i = some tx →
    (tx.targets.map (·.id)).Nodup ∧ ∀ d ∈ tx.targets, d.id ∈ r.db.deviceIds
  pools : ∀ model, (r.pool model).Inv OneTimePrekey.key

variable {device : Uuid} {db : Tables}

theorem Inv.tables (h : r.Inv) (hids : db.deviceIds.Nodup) (hkept : r.db.deviceIds ⊆ db.deviceIds)
    (howners : ∀ model, ∀ row ∈ db.oneTime model, row.device ∈ db.deviceIds)
    (hpools : ∀ model, (({ r with db := db } : ClaimRun).pool model).Inv OneTimePrekey.key) :
    ({ r with db := db } : ClaimRun).Inv :=
  ⟨hids, howners, fun model row hrow => hkept (h.handed model row hrow),
    fun i tx hi => ⟨(h.targets i tx hi).1, fun d hd => hkept ((h.targets i tx hi).2 d hd)⟩, hpools⟩

theorem rows_device {batch : Batch} (h : row ∈ batch.rows device) : row.device = device := by
  obtain ⟨k, -, rfl⟩ := mem_map.mp h
  rfl

theorem rows_distinct (batch : Batch) (device : Uuid) :
    ((batch.rows device).map OneTimePrekey.key).Nodup := by
  have hkeys : (batch.rows device).map OneTimePrekey.key =
      (batch.keys.map (·.keyId)).map fun id => (device, id) := by
    simp [Batch.rows, OneTimePrekey.key, comp_def]
  rw [hkeys]
  exact batch.distinct.map fun a b hab => (Prod.mk.inj hab).2

theorem Inv.register (h : r.Inv) {S : Settings} {user id : Uuid} {payload : RegisterDeviceIn}
    (hfresh : id ∉ r.db.deviceIds)
    (hdb : registerDevice S r.db user id payload = .ok db) :
    ({ r with db := db } : ClaimRun).Inv := by
  obtain ⟨hids, hrows⟩ := registerDevice_ok hdb
  refine h.tables ?_ ?_ (fun model row hrow => ?_) fun model => ?_
  · rw [hids]
    exact List.nodup_append'.mpr ⟨h.ids, List.nodup_singleton id,
      fun a ha hid => hfresh (mem_singleton.mp hid ▸ ha)⟩
  · rw [hids]
    exact List.subset_append_left _ _
  · rw [hrows] at hrow
    rw [hids]
    rcases mem_append.mp hrow with hrow | hrow
    · exact List.mem_append_left _ (h.owners model row hrow)
    · exact List.mem_append_right _ (mem_singleton.mpr (rows_device hrow))
  · -- no key id of a new device is taken
    have hfree : ∀ row ∈ (payload.otpks model).rows id,
        row.key ∉ (r.db.oneTime model).map OneTimePrekey.key := by
      intro row hrow hmem
      obtain ⟨row', hrow', hkey⟩ := mem_map.mp hmem
      have hdevice : row'.device = id := (Prod.mk.inj hkey).1.trans (rows_device hrow)
      exact hfresh (hdevice ▸ h.owners model row' hrow')
    have hinsert : r.db.oneTime model ++ (payload.otpks model).rows id =
        insertIgnoringConflicts (r.db.oneTime model) ((payload.otpks model).rows id) := by
      rw [insertIgnoringConflicts,
        List.filter_eq_self.mpr fun row hrow => decide_eq_true (hfree row hrow)]
    rw [pool_tables, hrows, hinsert, pool_insert]
    exact (h.pools model).insert (rows_distinct _ _) fun row hrow hout =>
      hfresh (rows_device hrow ▸ h.handed model row hout)

theorem Inv.replenish (h : r.Inv) {payload : PrekeyReplenishIn}
    {count : Nat} (hknown : device ∈ r.db.deviceIds) (hunclaimed : r.Unclaimed device payload)
    (hdb : Server.replenish r.db device payload = .ok (db, count)) :
    ({ r with db := db } : ClaimRun).Inv := by
  obtain ⟨hids, hrows⟩ := replenish_ok hdb
  refine h.tables (hids ▸ h.ids) (hids ▸ List.Subset.refl _) (fun model row hrow => ?_)
    fun model => ?_
  · rw [hrows] at hrow
    rw [hids]
    rcases mem_append.mp hrow with hrow | hrow
    · exact h.owners model row hrow
    · exact rows_device (mem_filter.mp hrow).1 ▸ hknown
  · rw [pool_tables, hrows, pool_insert]
    exact (h.pools model).insert (rows_distinct _ _) (hunclaimed model)

theorem Inv.revoke (h : r.Inv) {user device : Uuid}
    (hunlocked : ∀ model row, r.Locked model row → row.device ≠ device)
    (hdb : Server.revoke r.db user device = .ok db) : ({ r with db := db } : ClaimRun).Inv := by
  obtain ⟨hids, hrows⟩ := revoke_ok hdb
  refine h.tables (hids ▸ h.ids) (hids ▸ List.Subset.refl _) (fun model row hrow => ?_)
    fun model => ?_
  · rw [hrows] at hrow
    rw [hids]
    exact h.owners model row (mem_filter.mp hrow).1
  · have hpool : ({ r with db := db } : ClaimRun).pool model =
        (r.pool model).remove fun row => row.device = device := by
      rw [pool_tables, hrows]
      simp only [LockedPool.remove, pool, ne_eq, decide_not]
    rw [hpool]
    exact (h.pools model).remove fun i row hrow =>
      decide_eq_false (hunlocked model row (locked_of_held hrow))

theorem Inv.goOn (h : r.Inv) {tx tx' : ClaimTx} (hi : r.claim i = some tx)
    (htargets : tx'.targets = tx.targets)
    (hpools : ∀ model, { r.pool model with
      held := Function.update (r.pool model).held i (tx'.taken model) }.Inv OneTimePrekey.key) :
    ({ r with claims := r.claims.set i (some tx') } : ClaimRun).Inv := by
  refine ⟨h.ids, h.owners, h.handed, fun j tx'' hj => ?_, fun model => ?_⟩
  · rw [claim_set (lt_of_claim hi)] at hj
    by_cases hji : j = i
    · subst hji
      rw [update_self, Option.some.injEq] at hj
      rw [← hj, htargets]
      exact h.targets j tx hi
    · rw [update_of_ne hji] at hj
      exact h.targets j tx'' hj
  · rw [pool_set (lt_of_claim hi)]
    exact hpools model

theorem firstUnlocked_eq_some {table : List OneTimePrekey} {locked : OneTimePrekey → Prop}
    [DecidablePred locked]
    (h : firstUnlocked table locked device = some row) : row ∈ table ∧ ¬ locked row := by
  obtain ⟨hmem, hfree⟩ := mem_filter.mp (List.argmin_mem h)
  exact ⟨hmem, (of_decide_eq_true hfree).2⟩

theorem Inv.take (h : r.Inv) {rest : List Uuid} (hi : r.claim i = some tx) :
    ({ r with claims := r.claims.set i (some
      (tx.take model rest (firstUnlocked (r.db.oneTime model) (r.Locked model) device))) } :
      ClaimRun).Inv := by
  refine h.goOn hi rfl fun other => ?_
  by_cases hother : other = model
  · subst hother
    rw [ClaimTx.taken_take_self]
    cases hrow : firstUnlocked (r.db.oneTime other) (r.Locked other) device with
    | none =>
      rw [Option.toList_none, List.append_nil, ← held_eq hi, update_eq_self]
      exact h.pools other
    | some row =>
      obtain ⟨hmem, hfree⟩ := firstUnlocked_eq_some hrow
      rw [← held_eq hi]
      exact (h.pools other).take hmem fun j hj => hfree (locked_of_held hj)
  · rw [ClaimTx.taken_take_of_ne _ hother, ← held_eq hi, update_eq_self]
    exact h.pools other

theorem handedOut_subset (tx : ClaimTx) (model : Model) :
    handedOut model tx.bundles ⊆ tx.taken model := by
  intro row hrow
  obtain ⟨b, hb, hkey⟩ := List.mem_filterMap.mp hrow
  obtain ⟨d, -, rfl⟩ := mem_map.mp hb
  obtain ⟨k, hk, rfl⟩ := Option.map_eq_some_iff.mp hkey
  have htaken : takenFor (tx.taken model) d.id = some k := by
    cases model with
    | oneTimePrekey => exact hk
    | pqOneTimePrekey =>
      obtain ⟨-, -, hk⟩ := Option.bind_eq_some_iff.mp hk
      exact hk
  obtain ⟨row, hfind, rfl⟩ := Option.map_eq_some_iff.mp htaken
  have hdevice : row.device = d.id := by simpa using List.find?_some hfind
  change (⟨d.id, row.keyId, row.pub⟩ : OneTimePrekey) ∈ _
  rw [← hdevice]
  exact List.mem_of_find?_eq_some hfind

theorem handedOut_nodup (h : (tx.targets.map (·.id)).Nodup) (model : Model) :
    (handedOut model tx.bundles).Nodup := by
  have hdevices : ((handedOut model tx.bundles).map (·.device)).Sublist (tx.targets.map (·.id)) := by
    rw [handedOut, List.map_filterMap, ClaimTx.bundles]
    have : ∀ targets : List Device, (targets.filterMap fun d => ((tx.bundle d).otpk model).map
        fun k => d.id).Sublist (targets.map (·.id)) := by
      intro targets
      induction targets with
      | nil => exact .slnil
      | cons d targets ih =>
        cases hk : (tx.bundle d).otpk model with
        | none => simpa [hk] using ih.cons d.id
        | some k => simpa [hk] using ih.cons_cons d.id
    simpa [comp_def, ClaimTx.bundle] using this tx.targets
  exact (hdevices.nodup h).of_map _

theorem claim_of_end {i j : Nat}
    (h : ({ r with claims := r.claims.set i none } : ClaimRun).claim j = some tx) :
    r.claim j = some tx := by
  by_cases hi : i < r.claims.length
  · rw [claim_set hi] at h
    by_cases hji : j = i
    · subst hji
      rw [update_self] at h
      cases h
    · rwa [update_of_ne hji] at h
  · rwa [List.set_eq_of_length_le (Nat.le_of_not_lt hi)] at h

theorem Inv.abort (h : r.Inv) (i : Nat) :
    ({ r with claims := r.claims.set i none } : ClaimRun).Inv := by
  refine ⟨h.ids, h.owners, h.handed, fun j tx hj => h.targets j tx (claim_of_end hj), fun model => ?_⟩
  rw [pool_end]
  exact (h.pools model).abort i

theorem pool_commit (hi : r.claim i = some tx) :
    (⟨deleteTaken r.db tx, r.claims.set i none, r.answers ++ [tx.bundles]⟩ : ClaimRun).pool model =
      (r.pool model).handOut i (handedOut model tx.bundles) := by
  have hend : ({ r with claims := r.claims.set i none } : ClaimRun).pool model =
      (r.pool model).abort i := pool_end i
  have hheld := congrArg LockedPool.held hend
  rw [LockedPool.handOut, held_eq hi, LockedPool.mk.injEq]
  exact ⟨rfl, hheld, by simp [pool, out]⟩

theorem Inv.commit (h : r.Inv) (hi : r.claim i = some tx) :
    (⟨deleteTaken r.db tx, r.claims.set i none, r.answers ++ [tx.bundles]⟩ : ClaimRun).Inv := by
  obtain ⟨hnodup, -⟩ := h.targets i tx hi
  refine ⟨h.ids, fun model row hrow => h.owners model row (mem_filter.mp hrow).1,
    fun model row hrow => ?_, fun j tx' hj => h.targets j tx' (claim_of_end hj), fun model => ?_⟩
  · rw [out, List.flatMap_append, mem_append] at hrow
    rcases hrow with hrow | hrow
    · exact h.handed model row hrow
    · -- what is handed out was in the table
      rw [List.flatMap_singleton] at hrow
      have hheld : row ∈ (r.pool model).held i := by
        rw [held_eq hi]
        exact handedOut_subset tx model hrow
      exact h.owners model row ((h.pools model).mem i row hheld)
  · rw [pool_commit hi]
    refine (h.pools model).handOut (handedOut_nodup hnodup model) ?_
    rw [held_eq hi]
    exact handedOut_subset tx model

theorem Inv.begin (h : r.Inv) (user : Uuid) (deviceIds : Option (List Uuid)) :
    ({ r with claims := r.claims ++ [some (beginClaim r.db user deviceIds)] } : ClaimRun).Inv := by
  refine ⟨h.ids, h.owners, h.handed, fun j tx hj => ?_, fun model => ?_⟩
  · have hmem := mem_of_claim hj
    rcases mem_append.mp hmem with hold | hnew
    · obtain ⟨k, hk⟩ := List.mem_iff_getElem?.mp hold
      exact h.targets k tx (Option.join_eq_some_iff.mpr hk)
    · cases mem_singleton.mp hnew
      exact ⟨claimTargets_nodup h.ids user deviceIds, fun d hd =>
        List.mem_map_of_mem (mem_of_mem_claimTargets hd)⟩
  · rw [pool_begin rfl]
    exact h.pools model

end ClaimRun

variable (S : Settings)

theorem claim_inductive :
    (claimSystem S ClaimRun.Unclaimed).Inductive ClaimRun.Inv where
  init := by
    rintro ⟨db, claims, answers⟩ ⟨hids, htables, rfl, rfl⟩
    refine ⟨hids, fun model => (htables model).2, nofun, nofun, fun model => ?_⟩
    exact ⟨(htables model).1, nofun, fun _ => nodup_nil, nofun, nodup_nil, nofun⟩
  step := by
    intro r r' h hstep
    cases hstep with
    | register user id payload db fresh hdb => exact h.register fresh hdb
    | replenish device payload db count known hallowed hdb => exact h.replenish known hallowed hdb
    | revoke user device db unlocked hdb => exact h.revoke unlocked hdb
    | begin user deviceIds => exact h.begin user deviceIds
    | take i tx model device rest hi next order => exact h.take hi
    | commit i tx hi done => exact h.commit hi
    | abort i => exact h.abort i

/-- A one-time prekey is handed out at most once, in every run in which no upload carries a key that
was already handed out: no key, named by its device, key id and public key, is in two answers. -/
theorem handed_out_once (S : Settings) (r : ClaimRun)
    (hr : (claimSystem S ClaimRun.Unclaimed).Reachable r) (model : Model) :
    r.answers.Pairwise fun a b => (handedOut model a).Disjoint (handedOut model b) :=
  (List.nodup_flatMap.mp (((claim_inductive S).reachable hr).pools model).once).2

/-! ## One device, one key -/

def oneDevice : Tables where
  active _ := true
  identity _ := none
  devices := [⟨Block.fill 16 1, Block.fill 16 9, [], ⟨0, [], []⟩, 0, none, 0, none, false⟩]
  oneTime _ := []
  log _ := []

def oneKey : PrekeyReplenishIn where
  spk := none
  bundle := none
  pqSpk := none
  otpks
    | .oneTimePrekey => ⟨[⟨7, [3]⟩], by decide⟩
    | .pqOneTimePrekey => ⟨[], by decide⟩

def uploaded (r : ClaimRun) : ClaimRun :=
  match replenish r.db (Block.fill 16 1) oneKey with
  | .ok (db, _) => { r with db := db }
  | .error _ => r

def claimed (r : ClaimRun) : ClaimRun :=
  let tx := beginClaim r.db (Block.fill 16 9) none
  let begun : ClaimRun := { r with claims := r.claims ++ [some tx] }
  let tx' := tx.take .oneTimePrekey [] (firstUnlocked (begun.db.oneTime .oneTimePrekey)
    (begun.Locked .oneTimePrekey) (Block.fill 16 1))
  ⟨deleteTaken r.db tx', r.claims ++ [none], r.answers ++ [tx'.bundles]⟩

variable {r : ClaimRun} {allowed : ClaimRun → Uuid → PrekeyReplenishIn → Prop}

theorem uploaded_reachable {S : Settings} (hr : (claimSystem S allowed).Reachable r)
    (hknown : Block.fill 16 1 ∈ r.db.deviceIds) (hallowed : allowed r (Block.fill 16 1) oneKey) :
    (claimSystem S allowed).Reachable (uploaded r) := by
  unfold uploaded
  split
  · next db count h => exact hr.step (.replenish _ _ db count hknown hallowed h)
  · exact hr

theorem claimed_reachable {S : Settings} (hr : (claimSystem S allowed).Reachable r)
    (hleft : (beginClaim r.db (Block.fill 16 9) none).left .oneTimePrekey = [Block.fill 16 1])
    (hpq : (beginClaim r.db (Block.fill 16 9) none).left .pqOneTimePrekey = []) :
    (claimSystem S allowed).Reachable (claimed r) := by
  have hlast : ∀ tx : ClaimTx, ({ r with claims := r.claims ++ [some tx] } : ClaimRun).claim
      r.claims.length = some tx := fun tx => by simp [ClaimRun.claim]
  have hset : ∀ (tx : ClaimTx) (c : Option ClaimTx),
      (r.claims ++ [some tx]).set r.claims.length c = r.claims ++ [c] := fun tx c => by simp
  have hbegun := hr.step (.begin (Block.fill 16 9) none)
  have htaken := hbegun.step (.take r.claims.length _ .oneTimePrekey _ [] (hlast _) hleft nofun)
  rw [hset] at htaken
  have hcommitted := htaken.step (.commit r.claims.length _ (hlast _) fun model => ?_)
  · rw [hset] at hcommitted
    exact hcommitted
  · cases model with
    | oneTimePrekey => rfl
    | pqOneTimePrekey => exact hpq

theorem oneDevice_init (allowed : ClaimRun → Uuid → PrekeyReplenishIn → Prop) :
    (claimSystem S allowed).Reachable ⟨oneDevice, [], []⟩ :=
  .init ⟨by decide, fun _ => ⟨nodup_nil, nofun⟩, rfl, rfl⟩

/-- A key that is uploaded once is handed out once, though the device is claimed twice. -/
theorem handed_out_once_oneKey : ∃ r, (claimSystem ⟨10, 10⟩ ClaimRun.Unclaimed).Reachable r ∧
    r.answers.length = 2 ∧
    r.answers.Pairwise fun a b =>
      (handedOut .oneTimePrekey a).Disjoint (handedOut .oneTimePrekey b) := by
  have hr : (claimSystem ⟨10, 10⟩ ClaimRun.Unclaimed).Reachable
      (claimed (claimed (uploaded ⟨oneDevice, [], []⟩))) :=
    claimed_reachable (claimed_reachable (uploaded_reachable (oneDevice_init _ _) (by decide) nofun)
      rfl rfl) rfl rfl
  exact ⟨_, hr, rfl, handed_out_once _ _ hr .oneTimePrekey⟩

/-- The upload is applied, its response is lost, the key is claimed, and the exact retry puts it
back: the next claim hands it out again. -/
theorem retried_upload_hands_out_again : ∃ r,
    (claimSystem ⟨10, 10⟩ fun _ _ _ => True).Reachable r ∧
    ∃ a b row, r.answers = [a, b] ∧ row ∈ handedOut .oneTimePrekey a ∧
      row ∈ handedOut .oneTimePrekey b := by
  refine ⟨claimed (uploaded (claimed (uploaded ⟨oneDevice, [], []⟩))), ?_, _, _,
    ⟨Block.fill 16 1, 7, [3]⟩, rfl, by decide +kernel, by decide +kernel⟩
  refine claimed_reachable (uploaded_reachable (claimed_reachable (uploaded_reachable
    (oneDevice_init _ _) (by decide) trivial) rfl rfl) (by decide) trivial) rfl rfl

end CommPlatform.Server
