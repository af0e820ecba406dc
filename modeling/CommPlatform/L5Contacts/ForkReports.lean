import CommPlatform.L4Server.DeviceLog
import CommPlatform.L5Contacts.PeerTrust

/-!
# When a peer is reported as forked

An honest server and an honest account: every change of the device set lands
together with the log record that covers it, so the list that is served is
the one the head record covers. Any number of calls of the service run at the
same time, any number of changes land between two requests, and any call may
fail.

A refresh reads the device list and the pages of the log in separate
requests and takes another head on a page for a fork
(client_authentication_service.dart:346-350). A change that lands between
the two is enough.
-/
namespace CommPlatform.Contacts

open CommPlatform.Core

/-! ## The honest account -/

structure Landed where
  blob : Bytes
  live : List PeerPublicDevice
deriving DecidableEq

/-- What stays of the account, and how the server tags its answers. -/
structure Peer where
  identity : PeerIdentityPublic
  identityTag : String
  devicesTag : List Landed → String
  stateTag : List Landed → String

/-- The log of the account, and the rows this client keeps for it. -/
structure Seen where
  log : List Landed
  store : ContactStore

section Account

variable (X : Ctx) (peer : Peer)

def linkOf (log : List Landed) : Bytes :=
  (log.getLast?.map fun l => X.crypto.recordHash l.blob).getD (List.replicate 32 0)

/-- A record the account's devices append to `log`: it inspects as the next one, and as covering its
own set. -/
structure Covers (log : List Landed) (l : Landed) : Prop where
  inspects : ∀ devices, X.crypto.inspectPeerDeviceLog peer.identity.selfSigningPublic devices false
    l.blob = .ok ⟨log.length, linkOf X log, peer.identity.version⟩
  covers : X.crypto.inspectPeerDeviceLog peer.identity.selfSigningPublic l.live true l.blob =
    .ok ⟨log.length, linkOf X log, peer.identity.version⟩

def Linked (log : List Landed) : Prop := ∀ n l, log[n]? = some l → Covers X peer (log.take n) l

def liveSet (log : List Landed) : List PeerPublicDevice := (log.getLast?.map (·.live)).getD []

def headOf (log : List Landed) : Option Nat := Server.headSeq (log.map (·.blob))

def pageOf (page : Server.LogPage) : PeerDeviceLogPage where
  records := page.records.map fun (seq, blob) => ⟨seq, blob⟩
  hasMore := page.hasMore
  headSequence := page.headSeq

/-- What the honest server carries back for a log. -/
def honest (log : List Landed) : (c : Call) → Carried c → Prop
  | .fetchIdentity tag, a => a = if tag = some peer.identityTag then .notModified
      else .updated peer.identity peer.identityTag
  | .fetchDevices tag, a => a = if tag = some (peer.devicesTag log) then .notModified
      else .updated (liveSet log) (peer.devicesTag log) (headOf log)
  | .fetchPeerStates tag, a => a = if tag = some (peer.stateTag log) then
        .unchanged (peer.stateTag log)
      else .updated (some peer.identity) (some peer.identityTag) (liveSet log) (headOf log)
        (peer.stateTag log)
  | .fetchDeviceLog after _, a =>
    a = pageOf (Server.logPage (log.map (·.blob)) after Server.devicelogPageCap)
  | _, _ => True

/-- The page is asked for while the head is the one the device list named. -/
def UpToDate (log : List Landed) : Call → Prop
  | .fetchDeviceLog _ advertised => headOf log = some advertised
  | _ => True

instance (log : List Landed) : (c : Call) → Decidable (UpToDate log c)
  | .fetchDeviceLog _ advertised => inferInstanceAs (Decidable (headOf log = some advertised))
  | .hasAnyDeviceLogFork | .readTrust | .readDevices | .fetchIdentity _ | .fetchDevices _
  | .fetchPeerStates _ | .claimPrekeyBundles _ | .replaceDevices _
  | .appendVerifiedLogRecords _ | .writeTrust _ => .isTrue trivial

/-- Calls of the service about the honest account, each made only when `asks` allows it. -/
def honestWorld (asks : List Landed → Call → Prop) :
    Proc.World Call Answer Failure ContactTrustRecord Seen where
  init s := s = ⟨[], none, [], []⟩
  env s t := ∃ l, Covers X peer s.log l ∧ t = { s with log := s.log ++ [l] }
  starts p := ∃ (entry : Entry) (pages : Nat), p = entry.process X pages
  calls c s a t := asks s.log c ∧ (∀ v, a = .ok v → honest peer s.log c v) ∧
    storeCalls c s.store a t.store ∧ t.log = s.log

end Account

/-! ## Logs -/

section Logs

variable {X : Ctx} {peer : Peer} {log log' : List Landed} {n : Nat} {l : Landed}

theorem headOf_eq_some : headOf log = some n ↔ log.length = n + 1 := by
  rw [headOf, Server.headSeq_eq_some, List.length_map]

theorem liveSet_eq (h : log[n]? = some l) (hn : headOf log = some n) : liveSet log = l.live := by
  have hlast : log.getLast? = some l := by
    rw [List.getLast?_eq_getElem?, headOf_eq_some.mp hn]
    exact h
  simp only [liveSet, hlast, Option.map_some, Option.getD_some]

theorem linkOf_take_succ (h : log[n]? = some l) :
    linkOf X (log.take (n + 1)) = X.crypto.recordHash l.blob := by
  simp [linkOf, List.take_add_one, h]

theorem Linked.append (h : Linked X peer log) (hl : Covers X peer log l) :
    Linked X peer (log ++ [l]) := by
  intro n l' hn
  rcases Nat.lt_or_ge n log.length with hlt | hge
  · rw [List.getElem?_append_left hlt] at hn
    rw [List.take_append_of_le_length hlt.le]
    exact h n l' hn
  · rw [List.getElem?_append_right hge, List.getElem?_singleton] at hn
    obtain ⟨hz, rfl⟩ := Option.ite_none_right_eq_some.mp hn |>.imp id Option.some.inj
    have hlen : n = log.length := by omega
    rw [hlen, List.take_left]
    exact hl

theorem getElem?_grow (h : log <+: log') (hn : log[n]? = some l) : log'[n]? = some l := by
  obtain ⟨rest, rfl⟩ := h
  rw [List.getElem?_append_left (List.getElem?_eq_some_iff.mp hn).1]
  exact hn

end Logs

variable {r : ContactTrustRecord}

/-! ## Records -/

section Records

variable (X : Ctx) (peer : Peer)

structure Recorded (log : List Landed) (r : ContactTrustRecord) : Prop where
  state : r.state ≠ .deviceLogFork
  identity : ∀ i, r.identity = some i → i = peer.identity
  etag : r.etag.isSome → r.logHeadSequence.isSome
  peerStateEtag : r.peerStateEtag.isSome → r.logHeadSequence.isSome
  head : ∀ n, r.logHeadSequence = some n → ∃ l, log[n]? = some l ∧
    r.logHeadHash = some (X.crypto.recordHash l.blob)
  hash : r.logHeadSequence = none → r.logHeadHash = none

/-- What a process knows of the record it read. -/
def Known (log : List Landed) (previous : Option ContactTrustRecord) : Prop :=
  ∀ r, previous = some r → Recorded X peer log r

variable {X peer} {log log' : List Landed} {previous : Option ContactTrustRecord}

theorem Recorded.grow (h : Recorded X peer log r) (hlog : log <+: log') :
    Recorded X peer log' r where
  state := h.state
  identity := h.identity
  etag := h.etag
  peerStateEtag := h.peerStateEtag
  head n hn := by
    obtain ⟨l, hl, hhash⟩ := h.head n hn
    exact ⟨l, getElem?_grow hlog hl, hhash⟩
  hash := h.hash

variable (h : Known X peer log previous)
include h

theorem Known.grow (hlog : log <+: log') :
    Known X peer log' previous := fun r hr => (h r hr).grow hlog

theorem Known.identity {i : PeerIdentityPublic}
    (hi : previous.bind (·.identity) = some i) : i = peer.identity := by
  obtain ⟨r, hr, hri⟩ := Option.bind_eq_some_iff.mp hi
  exact (h r hr).identity i hri

theorem Known.head {n : Nat}
    (hn : previous.bind (·.logHeadSequence) = some n) : ∃ l, log[n]? = some l ∧
      previous.bind (·.logHeadHash) = some (X.crypto.recordHash l.blob) := by
  obtain ⟨r, rfl, hrn⟩ := Option.bind_eq_some_iff.mp hn
  exact (h r rfl).head n hrn

theorem Known.hash
    (hn : previous.bind (·.logHeadSequence) = none) : previous.bind (·.logHeadHash) = none := by
  cases previous with
  | none => rfl
  | some r => exact (h r rfl).hash hn

omit h

variable {tag : String} (h : Known X peer log previous)
include h

theorem Known.head_of_sentTag (ht : sentTag previous (·.peerStateEtag) = some tag) :
    ∃ n, previous.bind (·.logHeadSequence) = some n := by
  obtain ⟨r, rfl, hr⟩ := Option.bind_eq_some_iff.mp ht
  split at hr
  · exact absurd hr (Option.some_ne_none tag).symm
  · exact Option.isSome_iff_exists.mp ((h r rfl).peerStateEtag (Option.isSome_of_eq_some hr))

theorem Known.head_of_etag
    (ht : (if isBlocked (previous.map (·.state)) then none else previous.bind (·.etag)) =
      some tag) : ∃ n, previous.bind (·.logHeadSequence) = some n := by
  split at ht
  · exact absurd ht (Option.some_ne_none tag).symm
  · obtain ⟨r, rfl, hr⟩ := Option.bind_eq_some_iff.mp ht
    exact Option.isSome_iff_exists.mp ((h r rfl).etag (Option.isSome_of_eq_some hr))

theorem blockedRecord_recorded {state : ContactTrustState}
    (hstate : state ≠ .deviceLogFork) {identity : Option PeerIdentityPublic}
    (hi : ∀ i, identity = some i → i = peer.identity) :
    Recorded X peer log (blockedRecord previous state identity) where
  state := hstate
  identity i hri := by
    rcases Option.or_eq_some_iff.mp hri with hri | ⟨_, hri⟩
    · exact hi i hri
    · exact h.identity hri
  etag ht := absurd ht Bool.false_ne_true
  peerStateEtag ht := absurd ht Bool.false_ne_true
  head n hn := h.head hn
  hash hn := h.hash hn

omit h

theorem changedRecord_recorded (h : Recorded X peer log r)
    (tag : Option String) : Recorded X peer log (changedRecord r peer.identity tag) where
  state := nofun
  identity _ hi := (Option.some.inj hi).symm
  etag := h.etag
  peerStateEtag := h.peerStateEtag
  head := h.head
  hash := h.hash

end Records

variable {devices : List PeerPublicDevice} {advertised : Nat}

/-! ## Reading the log -/

section Cursor

variable {X : Ctx} {peer : Peer} {log log' : List Landed} {previous : Option ContactTrustRecord}
  {cursor : LogCursor}

/-- Where the reading stands in the log: what was read links, and ends where the cursor says. -/
structure At (X : Ctx) (previous : Option ContactTrustRecord) (log : List Landed)
    (cursor : LogCursor) : Prop where
  next : cursor.expectedSequence = Server.firstAfter cursor.after
  within : cursor.expectedSequence ≤ log.length
  link : cursor.expectedPrevious = linkOf X (log.take cursor.expectedSequence)
  verified : (cursor.verified = [] ∧ cursor.after = previous.bind (·.logHeadSequence)) ∨
    ∃ r, cursor.verified.getLast? = some r ∧ r.hash = cursor.expectedPrevious

theorem At.grow (h : At X previous log cursor) (hlog : log <+: log') : At X previous log' cursor
    where
  next := h.next
  within := h.within.trans hlog.length_le
  link := by
    obtain ⟨rest, rfl⟩ := hlog
    rw [h.link, List.take_append_of_le_length h.within]
  verified := h.verified

theorem At.start (h : Known X peer log previous) : At X previous log (LogCursor.start previous) :=
    by
  refine ⟨rfl, ?_, ?_, Or.inl ⟨rfl, rfl⟩⟩ <;>
    cases hn : previous.bind (·.logHeadSequence) with
    | none => simp [LogCursor.start, hn, h.hash hn, linkOf]
    | some n =>
      obtain ⟨l, hl, hhash⟩ := h.head hn
      have hlt := (List.getElem?_eq_some_iff.mp hl).1
      simp only [LogCursor.start, hn, hhash, Option.elim_some, Option.getD_some,
        linkOf_take_succ hl]
      try omega

theorem inspectRecords_served (hlinked : Linked X peer log)
    (hlive : ∀ l, log[advertised]? = some l → devices = l.live)
    (served rest : List Landed) {cursor : LogCursor} (h : At X previous log cursor)
    (hserved : log.drop cursor.expectedSequence = served ++ rest) :
    ∃ cursor', inspectRecords X previous peer.identity devices advertised cursor
        ((served.zipIdx cursor.expectedSequence).map fun (l, seq) => ⟨seq, l.blob⟩) = .ret cursor' ∧
      At X previous log cursor' ∧
      cursor'.expectedSequence = cursor.expectedSequence + served.length := by
  induction served generalizing cursor with
  | nil => exact ⟨cursor, rfl, h, rfl⟩
  | cons l served ih =>
    have hl : log[cursor.expectedSequence]? = some l := by
      rw [← List.head?_drop, hserved]
      rfl
    have hlt := (List.getElem?_eq_some_iff.mp hl).1
    have hlen : (log.take cursor.expectedSequence).length = cursor.expectedSequence :=
      List.length_take_of_le h.within
    -- the head record is inspected against its own set, any other against no set
    have hinspect : X.crypto.inspectPeerDeviceLog peer.identity.selfSigningPublic devices
        (cursor.expectedSequence = advertised) l.blob = .ok ⟨cursor.expectedSequence,
          cursor.expectedPrevious, peer.identity.version⟩ := by
      obtain ⟨hany, hcovers⟩ := hlinked _ _ hl
      rw [hlen, ← h.link] at hany hcovers
      by_cases he : cursor.expectedSequence = advertised
      · rw [decide_eq_true he, hlive l (he ▸ hl)]
        exact hcovers
      · rw [decide_eq_false he]
        exact hany devices
    have hstep : At X previous log ⟨some cursor.expectedSequence, cursor.expectedSequence + 1,
        X.crypto.recordHash l.blob, cursor.verified ++
          [⟨cursor.expectedSequence, l.blob, X.crypto.recordHash l.blob⟩]⟩ :=
      ⟨rfl, hlt, (linkOf_take_succ hl).symm, Or.inr ⟨_, List.getLast?_concat, rfl⟩⟩
    obtain ⟨cursor', hrun, hat, hend⟩ := ih hstep (by
      rw [← List.drop_drop, hserved]
      rfl)
    refine ⟨cursor', ?_, hat, ?_⟩
    · simp only [List.zipIdx_cons, List.map_cons, inspectRecords, inspectRecord, hinspect,
        ne_eq, not_true_eq_false, if_false, and_false, or_self, Proc.ret_bind]
      exact hrun
    · rw [hend, List.length_cons]
      dsimp only
      omega

end Cursor

/-! ## Processes -/

def Call.writesTrust : Call → Bool
  | .writeTrust _ => true
  | _ => false

def honestRules (X : Ctx) (peer : Peer) : Proc.Rules Call Answer Seen where
  calls := (honestWorld X peer UpToDate).calls
  rely s t := s.log <+: t.log
  guar s t := s.log <+: t.log
  inv s := Linked X peer s.log ∧ Known X peer s.log s.store.trust
  failed _ := True
  rely_refl s := List.prefix_refl s.log
  rely_trans h h' := h.trans h'

section Safe

variable {X : Ctx} {peer : Peer} {β : Type} {Q : β → Seen → Prop} {s : Seen}
  {previous : Option ContactTrustRecord}

theorem storeCalls_trust {c : Call} (hc : c.writesTrust = false) {s t : ContactStore}
    {a : Answer c} (h : storeCalls c s a t) : t.trust = s.trust := by
  cases a with
  | error e => rw [show t = s from h]
  | ok v =>
    cases c with
    | writeTrust trust => cases hc
    | readTrust | readDevices => rw [h.2]
    | _ =>
      rw [h]

theorem safe_call {c : Call} (hc : c.writesTrust = false) {f : Carried c → P β}
    (h : ∀ v u, s.log <+: u.log → Linked X peer u.log → Known X peer u.log u.store.trust →
      UpToDate u.log c → honest peer u.log c v → (∃ t, kept c t v u.store) →
      (f v).Safe (honestRules X peer) Q u) :
    ((Proc.call c : P (Answer c)) >>= fun a => Proc.ofExcept a >>= f).Safe
      (honestRules X peer) Q s := by
  intro t hst ⟨hlinked, hknown⟩ a u ⟨hasks, hhonest, hstore, hlog⟩
  rw [← hlog] at hlinked hknown hasks hhonest
  have hknown' : Known X peer u.log u.store.trust := by
    rw [storeCalls_trust hc hstore]
    exact hknown
  have hsu : s.log <+: u.log := hlog ▸ hst
  have htu : t.log <+: u.log := hlog ▸ List.prefix_refl _
  refine ⟨⟨hlinked, hknown'⟩, htu, ?_⟩
  cases a with
  | error e => trivial
  | ok v => exact h v u hsu hlinked hknown' hasks (hhonest v rfl) ⟨_, hstore⟩

variable {trust : ContactTrustRecord}

theorem safe_writeTrust (htrust : Recorded X peer s.log trust)
    {f : Answer (.writeTrust trust) → P β}
    (h : ∀ a u, s.log <+: u.log → (f a).Safe (honestRules X peer) Q u) :
    (Local.writeTrust trust >>= f).Safe (honestRules X peer) Q s := by
  intro t hst ⟨hlinked, hknown⟩ a u ⟨_, _, hstore, hlog⟩
  rw [← hlog] at hlinked hknown
  have hsu : s.log <+: u.log := hlog ▸ hst
  have htu : t.log <+: u.log := hlog ▸ List.prefix_refl _
  refine ⟨⟨hlinked, ?_⟩, htu, h a u hsu⟩
  cases a with
  | error e =>
    rw [show u.store = t.store from hstore]
    exact hknown
  | ok _ =>
    rw [show u.store = { t.store with trust := some trust } from hstore]
    intro r hr
    rw [← Option.some.inj hr]
    exact htrust.grow hsu

theorem persistBlocked_safe (h : Known X peer s.log previous) {state : ContactTrustState}
    (hstate : state ≠ .deviceLogFork) {identity : Option PeerIdentityPublic}
    (hi : ∀ i, identity = some i → i = peer.identity) (e : Failure) :
    (persistBlocked previous state identity e : P β).Safe (honestRules X peer) Q s :=
  safe_writeTrust (blockedRecord_recorded h hstate hi) fun _ _ _ => trivial

theorem invalidDevice_safe (h : Known X peer s.log previous) :
    (invalidDevice previous peer.identity : P β).Safe (honestRules X peer) Q s := by
  exact persistBlocked_safe h (by decide) (fun _ hi => (Option.some.inj hi).symm) _

theorem forkGate_safe : forkGate.Safe (honestRules X peer) (fun _ u => s.log <+: u.log) s := by
  refine safe_call rfl fun (forked : Bool) u hsu _ _ _ _ _ => ?_
  exact Proc.safe_check (fun _ => trivial) fun _ => hsu

variable {log : List Landed} {cursor : LogCursor}

theorem readPages_page (hlinked : Linked X peer log) (hhead : headOf log = some advertised)
    (hcovered : ∀ l, log[advertised]? = some l → devices = l.live)
    (h : At X previous log cursor) {page : PeerDeviceLogPage}
    (hpage : page = pageOf (Server.logPage (log.map (·.blob)) cursor.after Server.devicelogPageCap))
    (next : LogCursor → P LogCursor) : ∃ cursor',
    (if page.headSequence ≠ some advertised ∨
        (page.records = [] ∧ cursor.expectedSequence ≤ advertised) then fork previous peer.identity
      else do
        let cursor ← inspectRecords X previous peer.identity devices advertised cursor page.records
        if page.hasMore then next cursor else .ret cursor) =
      (if page.hasMore then next cursor' else .ret cursor') ∧ At X previous log cursor' ∧
      (page.hasMore = true → cursor.expectedSequence < cursor'.expectedSequence) ∧
      (page.hasMore = false → cursor'.after = some advertised) := by
  have hlen := headOf_eq_some.mp hhead
  have hcap : Server.devicelogPageCap = 200 := rfl
  have hwithin := h.within
  set served := (log.drop cursor.expectedSequence).take Server.devicelogPageCap with hserved
  have hrecords : page.records = (served.zipIdx cursor.expectedSequence).map
      fun (l, seq) => ⟨seq, l.blob⟩ := by
    simp only [hpage, pageOf, Server.logPage, ← h.next, ← List.map_drop, ← List.map_take,
      List.zipIdx_map, List.map_map]
    rfl
  have hmore : page.hasMore = decide (Server.devicelogPageCap <
      advertised + 1 - cursor.expectedSequence) := by
    simp [hpage, pageOf, Server.logPage, ← h.next, hlen]
  have hservedLength : served.length =
      min Server.devicelogPageCap (advertised + 1 - cursor.expectedSequence) := by
    rw [List.length_take, List.length_drop, hlen]
  -- the page is the head's, and is not empty before it
  have hcheck : ¬ (page.headSequence ≠ some advertised ∨
      (page.records = [] ∧ cursor.expectedSequence ≤ advertised)) := by
    rintro (hne | ⟨hempty, hle⟩)
    · exact hne (hpage ▸ hhead)
    · have : served.length = 0 := by
        simpa [hrecords, List.zipIdx_eq_nil_iff] using hempty
      omega
  obtain ⟨cursor', hrun, hat, hend⟩ := inspectRecords_served hlinked hcovered served _ h
    (List.take_append_drop Server.devicelogPageCap _).symm
  refine ⟨cursor', ?_, hat, fun hm => ?_, fun hm => ?_⟩
  · rw [if_neg hcheck, hrecords, hrun, Proc.ret_bind]
  · have := of_decide_eq_true (hmore ▸ hm)
    omega
  · have hlast := of_decide_eq_false (hmore ▸ hm)
    have hnext := hat.next
    cases hafter : cursor'.after with
    | none =>
      rw [hafter, Server.firstAfter, Option.elim_none] at hnext
      omega
    | some n =>
      rw [hafter, Server.firstAfter, Option.elim_some] at hnext
      congr 1
      omega

theorem readPages_safe {l : Landed}
    (hl : s.log[advertised]? = some l) (hlive : devices = l.live) (pages : Nat)
    (h : At X previous s.log cursor) :
    (readPages X previous peer.identity devices advertised pages cursor).Safe (honestRules X peer)
      (fun c u => s.log <+: u.log ∧ At X previous u.log c ∧ c.after = some advertised) s := by
  induction pages generalizing s cursor with
  | zero => trivial
  | succ pages ih =>
    refine safe_call rfl fun page u hsu hlinked _ hhead hpage _ => ?_
    have hcovered : ∀ l', u.log[advertised]? = some l' → devices = l'.live := by
      intro l' hl'
      rw [getElem?_grow hsu hl] at hl'
      rw [hlive, Option.some.inj hl']
    obtain ⟨cursor', hrun, hat, _, hlast⟩ := readPages_page hlinked hhead hcovered (h.grow hsu) hpage
      (readPages X previous peer.identity devices advertised pages)
    rw [hrun]
    split
    · exact (ih (getElem?_grow hsu hl) hat).mono fun c w hw => ⟨hsu.trans hw.1, hw.2⟩
    · next hmore => exact ⟨hsu, hat, hlast (Bool.eq_false_iff.mpr hmore)⟩

/-- A device list as it was served: of the head record then, or unchanged since the stored head. -/
def Served (log : List Landed) (previous : Option ContactTrustRecord) (read : DeviceRead) : Prop :=
  read.devices = [] ∨ ∃ n, read.advertisedHead = some n ∧
    (previous.bind (·.logHeadSequence) = some n ∨
      (∀ m, previous.bind (·.logHeadSequence) = some m → m ≤ n) ∧
        ∃ l, log[n]? = some l ∧ read.devices = l.live)

variable (hknown : Known X peer s.log previous)
include hknown

theorem readLog_safe
    (h : previous.bind (·.logHeadSequence) = some advertised ∨
      (∀ m, previous.bind (·.logHeadSequence) = some m → m ≤ advertised) ∧
        ∃ l, s.log[advertised]? = some l ∧ devices = l.live) (pages : Nat) :
    (readLog X previous peer.identity devices advertised pages).Safe (honestRules X peer)
      (fun c u => s.log <+: u.log ∧ At X previous u.log c ∧ c.after = some advertised) s := by
  have hstart : (LogCursor.start previous).after = previous.bind (·.logHeadSequence) := rfl
  unfold readLog
  simp only
  split
  · next hall =>
    rcases h with hsame | ⟨_, l, hl, hlive⟩
    · rw [hstart, hsame] at hall
      simp at hall
    · refine Proc.Safe.bind ((readPages_safe hl hlive pages (At.start hknown)).mono ?_)
      rintro cursor u ⟨hsu, hat, hafter⟩
      rw [if_neg (not_not_intro hafter)]
      exact ⟨hsu, hat, hafter⟩
  · next hall =>
    refine ⟨List.prefix_refl _, At.start hknown, ?_⟩
    rw [hstart]
    rcases h with hsame | ⟨hle, _⟩
    · exact hsame
    · rw [hstart] at hall
      cases hn : previous.bind (·.logHeadSequence) with
      | none => simp [hn] at hall
      | some m =>
        have := hle m hn
        simp only [hn, Option.all_some, decide_eq_true_eq] at hall
        congr 1
        omega

theorem checkClaimed_safe (devices : List PeerPublicDevice)
    (claimed : List ClaimedPrekeyBundle) (deviceId : Uuid) :
    (checkClaimed X previous peer.identity devices claimed deviceId).Safe (honestRules X peer)
      (fun _ u => u = s) s := by
  unfold checkClaimed
  split
  · split
    · exact invalidDevice_safe hknown
    · split
      · exact invalidDevice_safe hknown
      · exact rfl
  · exact invalidDevice_safe hknown
  · trivial

theorem checkAllClaimed_safe
    (devices : List PeerPublicDevice) (claimed : List ClaimedPrekeyBundle) (deviceIds : List Uuid) :
    (checkAllClaimed X previous peer.identity devices claimed deviceIds).Safe (honestRules X peer)
      (fun _ u => u = s) s := by
  induction deviceIds with
  | nil => exact rfl
  | cons deviceId deviceIds ih =>
    refine Proc.Safe.bind ((checkClaimed_safe hknown devices claimed deviceId).mono ?_)
    rintro _ u rfl
    exact ih

theorem claimBundles_safe (devices : List PeerPublicDevice) (claimDeviceIds : Option (List Uuid)) :
    (claimBundles X previous peer.identity devices claimDeviceIds).Safe (honestRules X peer)
      (fun _ u => s.log <+: u.log) s := by
  unfold claimBundles
  simp only
  split
  · exact invalidDevice_safe hknown
  · refine safe_call rfl fun claimed u hsu _ _ _ _ _ => ?_
    split
    · exact invalidDevice_safe (hknown.grow hsu)
    · refine Proc.Safe.bind ((checkAllClaimed_safe (hknown.grow hsu) devices claimed _).mono ?_)
      rintro _ w rfl
      exact hsu

omit hknown

variable (args : RefreshArgs)

theorem acceptedRecord_recorded (identityTag : Option String) (read : DeviceRead)
    (hknown : Known X peer log previous) (hat : At X previous log cursor)
    (hafter : cursor.after = some advertised) :
    Recorded X peer log (acceptedRecord X args previous peer.identity identityTag read advertised
      cursor.verified) where
  state := by
    simp only [acceptedRecord, nextState]
    split
    · split <;> decide
    · decide
  identity _ hi := (Option.some.inj hi).symm
  etag _ := rfl
  peerStateEtag _ := rfl
  head n hn := by
    cases hn
    have hnext : cursor.expectedSequence = advertised + 1 := by
      rw [hat.next, hafter]
      rfl
    have hlt : advertised < log.length := by
      have := hat.within
      omega
    have hl := List.getElem?_eq_getElem hlt
    rcases hat.verified with ⟨hnil, hsame⟩ | ⟨r, hr, hhash⟩
    · obtain ⟨l, hl, hhash⟩ := hknown.head (hsame ▸ hafter)
      exact ⟨l, hl, by simp only [acceptedRecord, hnil, List.getLast?_nil, hhash]⟩
    · refine ⟨_, hl, ?_⟩
      simp only [acceptedRecord, hr, hhash, hat.link, hnext, linkOf_take_succ hl]
  hash hn := absurd hn (Option.some_ne_none advertised)

theorem storeAccepted_safe (h : Recorded X peer s.log trust)
    (devices : List PeerPublicDevice) (verified : List VerifiedDeviceLogRecord)
    (claimed : List ClaimedPrekeyBundle) :
    (storeAccepted trust devices verified claimed).Safe (honestRules X peer)
      (fun p u => Recorded X peer u.log p.trust) s := by
  refine safe_call rfl fun _ u hsu _ _ _ _ _ => ?_
  refine safe_call rfl fun _ v huv _ _ _ _ _ => ?_
  refine safe_writeTrust (h.grow (hsu.trans huv)) fun a w hvw => ?_
  exact Proc.Safe.bind
    (Proc.safe_ofExcept (fun _ _ => trivial) fun _ _ => (h.grow (hsu.trans huv)).grow hvw)

theorem refreshDevices_safe (hknown : Known X peer s.log previous)
    {read : DeviceRead} (hread : Served s.log previous read) (pages : Nat)
    (identityTag : Option String) (cached : List PeerPublicDevice) :
    (refreshDevices X args previous pages peer.identity identityTag cached read).Safe
      (honestRules X peer) (fun p u => Recorded X peer u.log p.trust) s := by
  unfold refreshDevices
  split
  · exact persistBlocked_safe hknown (by decide) (fun _ hi => (Option.some.inj hi).symm) _
  · next hlisted =>
    obtain ⟨n, hn, hserved⟩ := hread.resolve_left fun h => hlisted (Or.inl h)
    have hle : (previous.bind (·.logHeadSequence)).any (n < ·) = false := by
      cases hm : previous.bind (·.logHeadSequence) with
      | none => rfl
      | some m =>
        rcases hserved with hsame | ⟨hle, _⟩
        · simp [Option.some.inj (hm.symm.trans hsame)]
        · simpa using hle m hm
    simp only [hn, hle, Bool.false_eq_true, if_false]
    split
    · exact invalidDevice_safe hknown
    · split
      · trivial
      · refine Proc.Safe.bind ((readLog_safe hknown hserved pages).mono ?_)
        rintro cursor u ⟨hsu, hat, hafter⟩
        have haccepted := fun log (hlog : u.log <+: log) =>
          acceptedRecord_recorded args identityTag read
            ((hknown.grow hsu).grow hlog) (hat.grow hlog) hafter
        split
        · refine Proc.Safe.bind ((claimBundles_safe (hknown.grow hsu) _ _).mono ?_)
          intro claimed w huw
          exact storeAccepted_safe (haccepted _ huw) _ _ _
        · exact storeAccepted_safe (haccepted _ (List.prefix_refl _)) _ _ _

theorem served_head (hknown : Known X peer log previous) (changed : Bool)
    (tag : Option String) : Served log previous ⟨liveSet log, headOf log, changed, tag⟩ := by
  rcases List.eq_nil_or_concat' log with rfl | ⟨before, l, rfl⟩
  · exact Or.inl rfl
  · have hhead : headOf (before ++ [l]) = some before.length :=
      headOf_eq_some.mpr (List.length_append ..)
    have hl : (before ++ [l])[before.length]? = some l := List.getElem?_concat_length ..
    refine Or.inr ⟨before.length, hhead, Or.inr ⟨fun m hm => ?_, l, hl, liveSet_eq hl hhead⟩⟩
    obtain ⟨_, hm, _⟩ := hknown.head hm
    have := (List.getElem?_eq_some_iff.mp hm).1
    rw [List.length_append, List.length_singleton] at this
    omega

theorem served_unchanged {n : Nat} (devices : List PeerPublicDevice)
    (changed : Bool) (tag : Option String)
    (h : previous.bind (·.logHeadSequence) = some n) :
    Served log previous ⟨devices, previous.bind (·.logHeadSequence), changed, tag⟩ :=
  Or.inr ⟨n, h, Or.inl h⟩

theorem deviceReadOf_served (hknown : Known X peer log previous) {answer : PeerDeviceRefresh}
    (h : honest peer log (.fetchDevices (if isBlocked (previous.map (·.state)) then none
      else previous.bind (·.etag))) answer) (cached : List PeerPublicDevice) :
    Served log previous (deviceReadOf previous cached answer) := by
  by_cases htag : (if isBlocked (previous.map (·.state)) then none
      else previous.bind (·.etag)) = some (peer.devicesTag log)
  · obtain ⟨n, hn⟩ := hknown.head_of_etag htag
    obtain rfl : answer = .notModified := h.trans (if_pos htag)
    exact served_unchanged _ _ _ hn
  · obtain rfl : answer = .updated _ _ _ := h.trans (if_neg htag)
    exact served_head hknown _ _

/-- What a batched answer says of the account, as far as it was read. -/
structure Batched (X : Ctx) (peer : Peer) (log : List Landed)
    (previous : Option ContactTrustRecord) (read : PeerStateRead) : Prop where
  identity : ∀ i tag, batchedIdentity previous read = .ok (i, tag) → i = peer.identity
  devices : ∀ cached r, batchedDevices previous cached read = .ok r → Served log previous r

theorem Served.grow {log log' : List Landed} {read : DeviceRead} (h : Served log previous read)
    (hlog : log <+: log') : Served log' previous read := by
  rcases h with hnil | ⟨n, hn, hsame | ⟨hle, l, hl, hlive⟩⟩
  · exact Or.inl hnil
  · exact Or.inr ⟨n, hn, Or.inl hsame⟩
  · exact Or.inr ⟨n, hn, Or.inr ⟨hle, l, getElem?_grow hlog hl, hlive⟩⟩

variable {read : PeerStateRead}

theorem batched_of_honest (hknown : Known X peer log previous)
    (h : honest peer log (.fetchPeerStates (sentTag previous (·.peerStateEtag))) read) :
    Batched X peer log previous read := by
  by_cases htag : sentTag previous (·.peerStateEtag) = some (peer.stateTag log)
  · obtain ⟨n, hn⟩ := hknown.head_of_sentTag htag
    obtain rfl : read = .unchanged _ := h.trans (if_pos htag)
    refine ⟨fun i tag hi => ?_, fun cached r hr => ?_⟩
    · simp only [batchedIdentity] at hi
      split at hi
      · next identity hidentity =>
        obtain ⟨rfl, _⟩ := Prod.mk.inj (Except.ok.inj hi)
        exact hknown.identity hidentity
      · cases hi
    · rw [← Except.ok.inj hr]
      exact served_unchanged _ _ _ hn
  · obtain rfl : read = .updated _ _ _ _ _ := h.trans (if_neg htag)
    refine ⟨fun i tag hi => ?_, fun cached r hr => ?_⟩
    · exact (Prod.mk.inj (Except.ok.inj hi)).1.symm
    · rw [← Except.ok.inj hr]
      exact served_head hknown _ _

theorem refreshIdentity_safe (hknown : Known X peer s.log previous)
    (hbatched : ∀ b, args.batched = some b → Batched X peer s.log previous b.2) (pages : Nat)
    (identityTag : Option String) :
    (refreshIdentity X args previous pages peer.identity identityTag).Safe
      (honestRules X peer) (fun p u => Recorded X peer u.log p.trust) s := by
  unfold refreshIdentity
  split
  · exact persistBlocked_safe hknown (by decide) (fun _ hi => (Option.some.inj hi).symm) _
  · split
    · trivial
    · split
      · next r hr =>
        obtain ⟨hprevious, _⟩ := Option.filter_eq_some_iff.mp hr
        exact safe_writeTrust (changedRecord_recorded (hknown r hprevious) identityTag)
          fun _ _ _ => trivial
      · refine safe_call rfl fun cached u hsu _ _ _ _ _ => ?_
        split
        · next b hb =>
          refine Proc.Safe.bind (Proc.safe_ofExcept (fun _ _ => trivial) fun read hread => ?_)
          exact refreshDevices_safe args (hknown.grow hsu)
            (((hbatched b hb).devices _ _ hread).grow hsu) pages identityTag cached
        · refine safe_call rfl fun answer w huw _ _ _ hanswer _ => ?_
          have hknown' := (hknown.grow hsu).grow huw
          exact refreshDevices_safe args hknown' (deviceReadOf_served hknown' hanswer cached)
            pages identityTag cached

variable {tag : Option String}

theorem identityOf_honest (hknown : Known X peer log previous)
    {answer : Answer (.fetchIdentity (sentTag previous (·.identityEtag)))}
    (h : ∀ v, answer = .ok v → honest peer log (.fetchIdentity (sentTag previous (·.identityEtag))) v)
    {i : PeerIdentityPublic} (hi : identityOf previous answer = .ok (i, tag)) :
    i = peer.identity := by
  cases answer with
  | error e => cases hi
  | ok v =>
    by_cases htag : sentTag previous (·.identityEtag) = some peer.identityTag
    · obtain rfl : v = .notModified := (h v rfl).trans (if_pos htag)
      simp only [identityOf] at hi
      split at hi
      · next hidentity _ =>
        obtain ⟨rfl, _⟩ := Prod.mk.inj (Except.ok.inj hi)
        exact hknown.identity hidentity
      · cases hi
    · obtain rfl : v = .updated _ _ := (h v rfl).trans (if_neg htag)
      exact (Prod.mk.inj (Except.ok.inj hi)).1.symm

theorem refreshRead_safe (hknown : Known X peer s.log previous)
    (hbatched : ∀ b, args.batched = some b → Batched X peer s.log previous b.2) (pages : Nat)
    {read : Except Failure IdentityRead} (hread : ∀ i tag, read = .ok (i, tag) → i = peer.identity) :
    (refreshRead X args previous pages read).Safe (honestRules X peer)
      (fun p u => Recorded X peer u.log p.trust) s := by
  match read with
  | .error e => exact persistBlocked_safe hknown (by decide) (fun _ hi => by cases hi) e
  | .ok (identity, tag) =>
    obtain rfl := hread _ _ rfl
    exact refreshIdentity_safe args hknown hbatched pages tag

theorem safe_fetchIdentity {f : Answer (.fetchIdentity tag) → P β}
    (h : ∀ a u, s.log <+: u.log → (∀ v, a = .ok v → honest peer u.log (.fetchIdentity tag) v) →
      (f a).Safe (honestRules X peer) Q u) :
    (Remote.fetchIdentity tag >>= f).Safe (honestRules X peer) Q s := by
  intro t hst ⟨hlinked, hknown⟩ a u ⟨_, hhonest, hstore, hlog⟩
  rw [← hlog] at hlinked hknown hhonest
  rw [← storeCalls_trust rfl hstore] at hknown
  have hsu : s.log <+: u.log := hlog ▸ hst
  have htu : t.log <+: u.log := hlog ▸ List.prefix_refl _
  exact ⟨⟨hlinked, hknown⟩, htu, h a u hsu hhonest⟩

theorem refreshUngated_safe
    (hbatched : ∀ b, args.batched = some b → Known X peer s.log b.1 ∧ Batched X peer s.log b.1 b.2)
    (pages : Nat) : (refreshUngated X args pages).Safe (honestRules X peer)
      (fun p u => Recorded X peer u.log p.trust) s := by
  unfold refreshUngated
  split
  · next previous read hb =>
    obtain ⟨hknown, hread⟩ := hbatched _ hb
    refine refreshRead_safe args hknown (fun b hb' => ?_) pages hread.identity
    rw [← Option.some.inj (hb.symm.trans hb')]
    exact hread
  · next hnone =>
    refine safe_call rfl fun previous u hsu _ hknown _ _ hkept => ?_
    obtain ⟨t, rfl, hut⟩ := hkept
    rw [hut] at hknown
    refine safe_fetchIdentity fun answer w huw hanswer => ?_
    have hknown' := hknown.grow huw
    refine refreshRead_safe args hknown' (fun b hb => ?_) pages
      fun i tag hi => identityOf_honest hknown' hanswer hi
    rw [hnone] at hb
    cases hb

theorem Batched.grow {log log' : List Landed}
    (h : Batched X peer log previous read) (hlog : log <+: log') :
    Batched X peer log' previous read :=
  ⟨h.identity, fun cached r hr => (h.devices cached r hr).grow hlog⟩

theorem refresh_safe
    (hbatched : ∀ b, args.batched = some b → Known X peer s.log b.1 ∧ Batched X peer s.log b.1 b.2)
    (pages : Nat) : (refresh X args pages).Safe (honestRules X peer)
      (fun p u => Recorded X peer u.log p.trust) s := by
  unfold refresh
  split
  · refine Proc.Safe.bind (forkGate_safe.mono fun _ u hsu => ?_)
    exact refreshUngated_safe args
      (fun b hb => ⟨(hbatched b hb).1.grow hsu, (hbatched b hb).2.grow hsu⟩) pages
  · exact refreshUngated_safe args hbatched pages

theorem refresh_single_safe (requirePrekeys : Bool) (claimDeviceIds : Option (List Uuid))
    (allowMasterReplacement : Bool) (pages : Nat) :
    (refresh X ⟨requirePrekeys, claimDeviceIds, allowMasterReplacement, none⟩ pages).Safe
      (honestRules X peer) (fun p u => Recorded X peer u.log p.trust) s :=
  refresh_safe _ (fun _ hb => by cases hb) pages

variable (pages : Nat)

theorem confirmOutOfBand_safe (exactMasterPublic : Bytes) :
    (confirmOutOfBand X pages exactMasterPublic).Safe (honestRules X peer) (fun _ _ => True) s := by
  refine Proc.Safe.bind ((refresh_single_safe _ _ _ pages).mono fun p u hp => ?_)
  unfold confirmRefreshed
  split
  · trivial
  · next identity hidentity =>
    refine Proc.Safe.bind (Proc.safe_check (fun _ => trivial) fun _ => ?_)
    refine Proc.Safe.bind (Proc.safe_ofExcept (fun _ _ => trivial) fun attestation _ => ?_)
    have hconfirmed : Recorded X peer u.log (confirmedRecord p identity attestation) :=
      { hp with
        state := nofun
        identity := fun i hi => hp.identity i (hidentity.trans hi) }
    refine safe_writeTrust hconfirmed fun a w _ => ?_
    exact Proc.Safe.bind (Proc.safe_ofExcept (fun _ _ => trivial) fun _ _ => trivial)

theorem resolveLiveDevicesForUsers_safe :
    (resolveLiveDevicesForUsers X pages).Safe (honestRules X peer) (fun _ _ => True) s := by
  refine Proc.Safe.bind (forkGate_safe.mono fun _ u _ => ?_)
  refine safe_call rfl fun previous v _ _ hknown _ _ hkept => ?_
  obtain ⟨t, rfl, hut⟩ := hkept
  rw [hut] at hknown
  refine safe_call rfl fun read w hvw _ _ _ hread _ => ?_
  have hknown' := hknown.grow hvw
  refine Proc.Safe.bind (forkGate_safe.mono fun _ x hwx => ?_)
  refine (refresh_safe _ (fun b hb => ?_) pages).mono fun _ _ _ => trivial
  rw [← Option.some.inj hb]
  exact ⟨hknown'.grow hwx, (batched_of_honest hknown' hread).grow hwx⟩

theorem process_safe (entry : Entry) (pages : Nat) :
    (entry.process X pages).Safe (honestRules X peer) (fun _ _ => True) s := by
  cases entry with
  | refreshPeer requirePrekeys =>
    exact Proc.Safe.bind ((refresh_single_safe _ _ _ pages).mono fun _ _ _ => trivial)
  | refreshPeerForDevices deviceIds =>
    refine Proc.Safe.bind (Proc.safe_check (fun _ => trivial) fun _ => ?_)
    exact Proc.Safe.bind ((refresh_single_safe _ _ _ pages).mono fun _ _ _ => trivial)
  | resolveLiveDevices =>
    refine Proc.Safe.bind (forkGate_safe.mono fun _ u _ => ?_)
    exact Proc.Safe.bind ((refresh_single_safe _ _ _ pages).mono fun _ _ _ => trivial)
  | resolveLiveDevicesForUsers =>
    exact Proc.Safe.bind ((resolveLiveDevicesForUsers_safe pages).mono fun _ _ _ => trivial)
  | confirmOutOfBand exactMasterPublic => exact confirmOutOfBand_safe pages exactMasterPublic

end Safe

/-! ## One run -/

section Run

def honestAnswer (peer : Peer) : (c : Call) → Seen → Answer c × Seen
  | .hasAnyDeviceLogFork, s => (.ok false, s)
  | .readTrust, s => (.ok s.store.trust, s)
  | .readDevices, s => (.ok (sortDevices s.store.devices), s)
  | .fetchIdentity tag, s => (.ok (if tag = some peer.identityTag then .notModified
      else .updated peer.identity peer.identityTag), s)
  | .fetchDevices tag, s => (.ok (if tag = some (peer.devicesTag s.log) then .notModified
      else .updated (liveSet s.log) (peer.devicesTag s.log) (headOf s.log)), s)
  | .fetchPeerStates tag, s => (.ok (if tag = some (peer.stateTag s.log) then
        .unchanged (peer.stateTag s.log)
      else .updated (some peer.identity) (some peer.identityTag) (liveSet s.log) (headOf s.log)
        (peer.stateTag s.log)), s)
  | .fetchDeviceLog after _, s =>
    (.ok (pageOf (Server.logPage (s.log.map (·.blob)) after Server.devicelogPageCap)), s)
  | .claimPrekeyBundles _, s => (.ok [], s)
  | .replaceDevices devices, s => (.ok (), { s with store.devices := devices })
  | .appendVerifiedLogRecords records, s =>
    (.ok (), { s with store.records := records.foldl insertOrIgnore s.store.records })
  | .writeTrust trust, s => (.ok (), { s with store.trust := some trust })

theorem honestAnswer_calls (X : Ctx) (peer : Peer) {asks : List Landed → Call → Prop} {c : Call}
    {s : Seen} (h : asks s.log c) : (honestWorld X peer asks).calls c s (honestAnswer peer c s).1
      (honestAnswer peer c s).2 := by
  have hanswer : ∀ v, (honestAnswer peer c s).1 = .ok v → honest peer s.log c v := by
    intro v hv
    cases c <;> cases hv <;> first | exact rfl | trivial
  have hstore : storeCalls c s.store (honestAnswer peer c s).1 (honestAnswer peer c s).2.store := by
    cases c <;> first | exact rfl | exact ⟨rfl, rfl⟩
  have hlog : (honestAnswer peer c s).2.log = s.log := by
    cases c <;> rfl
  exact ⟨h, hanswer, hstore, hlog⟩

def phone : PeerPublicDevice := ⟨.fill 16 1, [1], 7, some [2], some 1⟩

def laptop : PeerPublicDevice := ⟨⟨List.replicate 16 2, rfl⟩, [3], 8, some [4], some 1⟩

def lengthCtx : Ctx where
  crypto :=
    { verifyIdentity := fun _ => .ok ()
      verifyClaimedBundle := fun _ _ => .ok ()
      inspectPeerDeviceLog := fun _ _ _ record => .ok ⟨record.length, List.replicate 32 0, 1⟩
      recordHash := fun _ => List.replicate 32 0
      attestPeerMaster := fun master => .ok master
      verifyUserAttestation := fun _ _ => .ok () }
  ownIdentity := none

def lengthPeer : Peer where
  identity := ⟨[5], [6], [7], [8], 1⟩
  identityTag := "i"
  devicesTag log := toString log.length
  stateTag log := toString log.length

variable (log : List Landed)

theorem lengthCtx_covers (live : List PeerPublicDevice) :
    Covers lengthCtx lengthPeer log ⟨List.replicate log.length 0, live⟩ := by
  have hlink : linkOf lengthCtx log = List.replicate 32 0 := by
    unfold linkOf
    cases log.getLast? <;> rfl
  have hnext : lengthCtx.crypto.inspectPeerDeviceLog [] [] false (List.replicate log.length 0) =
      .ok ⟨log.length, linkOf lengthCtx log, 1⟩ := by
    rw [hlink]
    simp [lengthCtx]
  exact ⟨fun _ => hnext, hnext⟩

def nextLanded (log : List Landed) : Landed :=
  ⟨List.replicate log.length 0, if log = [] then [phone] else [phone, laptop]⟩

theorem nextLanded_covers :
    Covers lengthCtx lengthPeer log (nextLanded log) := lengthCtx_covers log _

def land (s : Seen) : Seen := { s with log := s.log ++ [nextLanded s.log] }

theorem reachable_started (asks : List Landed → Call → Prop) :
    (honestWorld lengthCtx lengthPeer asks).system.Reachable
      ⟨land ⟨[], none, [], []⟩, [] ++ [(Entry.refreshPeer false).process lengthCtx 1]⟩ := by
  have hinit : (honestWorld lengthCtx lengthPeer asks).system.Reachable
      ⟨⟨[], none, [], []⟩, []⟩ := .init ⟨rfl, rfl⟩
  exact .step (.step hinit (.env ⟨_, nextLanded_covers _, rfl⟩)) (.start ⟨_, _, rfl⟩)

def answerAfterLanding : (c : Call) → Seen → Answer c × Seen
  | .fetchDeviceLog after advertised, s =>
    honestAnswer lengthPeer (.fetchDeviceLog after advertised) (land s)
  | c, s => honestAnswer lengthPeer c s

theorem answerAfterLanding_calls (c : Call) (s : Seen) (_ : true) : ∃ t,
    Relation.ReflTransGen (honestWorld lengthCtx lengthPeer fun _ _ => True).env s t ∧
    (honestWorld lengthCtx lengthPeer fun _ _ => True).calls c t (answerAfterLanding c s).1
      (answerAfterLanding c s).2 := by
  cases c with
  | fetchDeviceLog after advertised =>
    exact ⟨land s, .single ⟨_, nextLanded_covers s.log, rfl⟩,
      honestAnswer_calls lengthCtx lengthPeer trivial⟩
  | _ => exact ⟨s, .refl, honestAnswer_calls lengthCtx lengthPeer trivial⟩

end Run

/-! ## Every run -/

theorem honest_inductive (X : Ctx) (peer : Peer) :
    (honestWorld X peer UpToDate).system.Inductive fun pool =>
      (honestRules X peer).inv pool.state ∧
        ∀ p ∈ pool.procs, p.Safe (honestRules X peer) (fun _ _ => True) pool.state := by
  refine Proc.World.inductive_of_safe _ _ rfl (fun _ _ h => h) (fun _ => trivial) ?_ ?_ ?_
  · rintro s rfl
    refine ⟨fun n l h => ?_, fun r h => ?_⟩
    · rw [List.getElem?_nil] at h
      cases h
    · cases h
  · rintro s t ⟨hlinked, hknown⟩ ⟨l, hl, rfl⟩
    exact ⟨⟨hlinked.append hl, hknown.grow (List.prefix_append _ _)⟩, List.prefix_append _ _⟩
  · rintro p ⟨entry, pages, rfl⟩ s _
    exact process_safe entry pages

/-- **An honest account is not reported as forked**, however many calls run at the same time and
whatever lands between their requests, as long as every page of the log is asked for while the head
is the one the device list named. -/
theorem honest_account_not_forked (X : Ctx) (peer : Peer)
    {pool : Proc.Pool Call Answer Failure ContactTrustRecord Seen}
    (h : (honestWorld X peer UpToDate).system.Reachable pool)
    (hr : pool.state.store.trust = some r) : r.state ≠ .deviceLogFork :=
  (((honest_inductive X peer).reachable h).1.2 r hr).state

/-- A first refresh of the account, the change of the laptop, and a second refresh. -/
theorem honest_account_not_forked_phone : ∃ pool r,
    (honestWorld lengthCtx lengthPeer UpToDate).system.Reachable pool ∧
    pool.state.store.trust = some r ∧ r.logHeadSequence = some 1 ∧ r.state ≠ .deviceLogFork := by
  have hcalls : ∀ c s, decide (UpToDate s.log c) = true → ∃ t,
      Relation.ReflTransGen (honestWorld lengthCtx lengthPeer UpToDate).env s t ∧
      (honestWorld lengthCtx lengthPeer UpToDate).calls c t (honestAnswer lengthPeer c s).1
        (honestAnswer lengthPeer c s).2 :=
    fun c s h => ⟨s, .refl, honestAnswer_calls lengthCtx lengthPeer (of_decide_eq_true h)⟩
  obtain ⟨p, hp⟩ := Proc.World.reachable_run _ (honestAnswer lengthPeer) hcalls
    ((Entry.refreshPeer false).process lengthCtx 1) (by decide +kernel) (reachable_started UpToDate)
  obtain ⟨q, hq⟩ := Proc.World.reachable_run _ (honestAnswer lengthPeer) hcalls
    ((Entry.refreshPeer false).process lengthCtx 1) (by decide +kernel)
    (.step (.step hp (.env ⟨_, nextLanded_covers _, rfl⟩)) (.start ⟨_, _, rfl⟩))
  obtain ⟨r, hr, hhead⟩ : ∃ r, ((((Entry.refreshPeer false).process lengthCtx 1).run
      (honestAnswer lengthPeer) (land (((Entry.refreshPeer false).process lengthCtx 1).run
        (honestAnswer lengthPeer) (land ⟨[], none, [], []⟩)).2)).2.store.trust) = some r ∧
      r.logHeadSequence = some 1 := ⟨_, rfl, rfl⟩
  exact ⟨_, r, hq, hr, hhead, honest_account_not_forked lengthCtx lengthPeer hq hr⟩

/-- The laptop lands between the device list and the page of the log: the account of the two is
reported as forked. -/
theorem landed_change_reported_as_fork : ∃ pool r,
    (honestWorld lengthCtx lengthPeer fun _ _ => True).system.Reachable pool ∧
    pool.state.store.trust = some r ∧ r.state = .deviceLogFork := by
  obtain ⟨q, hq⟩ := Proc.World.reachable_run (fun _ _ => true) answerAfterLanding
    answerAfterLanding_calls ((Entry.refreshPeer false).process lengthCtx 1) (by decide +kernel)
    (reachable_started fun _ _ => True)
  obtain ⟨r, hr, hstate⟩ : ∃ r, ((((Entry.refreshPeer false).process lengthCtx 1).run
      answerAfterLanding (land ⟨[], none, [], []⟩)).2.store.trust) = some r ∧
      r.state = .deviceLogFork := ⟨_, rfl, rfl⟩
  exact ⟨_, r, hq, hr, hstate⟩

end CommPlatform.Contacts
