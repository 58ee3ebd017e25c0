/-
The bootstrap server of twinit.

A CONNECT to an endpoint that nobody has registered starts the service of the
endpoint and is queued.  The policy of the endpoint is looked at when the connection
is completed, perhaps rounds later. REGISTER, log pipes and buffers are left out.
-/
import Twilight.Lib.Machine

namespace Twilight.Twinit

open List

abbrev Text := List Char

structure TxpcPolicy where
  allowAll : Bool
  allowUids : List Nat
  requireCap : List Text

structure TxpcConfig where
  name : Text
  onDemand : Bool
  policy : Option TxpcPolicy
  /-- the capabilities the service has as a client -/
  client : Option (List Text)

inductive RuntimeStatus
  | stopped
  | starting
  | running
  | exited (code : Int)
  | failed (code : Int)

structure ServiceState where
  txpc : Option TxpcConfig
  pid : Option Int
  status : RuntimeStatus
  restartCount : Nat
  disabled : Bool
  registeredTxpcFd : Option Nat

structure PendingConnect where
  targetName : Text
  peerPid : Int
  peerUid : Nat
  txpcWire : Bool
  created : Nat

structure Server where
  services : List ServiceState
  pendingConnects : List PendingConnect

/-- How far a permitted connection gets. -/
inductive Transfer
  | noSocketpair
  | serviceUnreachable
  | clientUnreachable
  | done

/-- What the system answers while a request is handled; the clock is in milliseconds. -/
structure World where
  fork : Option Int
  tryClone : Bool
  transfer : Transfer
  now : Nat

def startService (fork : Option Int) (service : ServiceState) : ServiceState :=
  if service.disabled || service.pid.isSome then service
  else match fork with
    | some pid => { service with pid := some pid, status := .running }
    | none => { service with status := .failed (-1) }

/-- The service once a request needs it. -/
def demanded (fork : Option Int) (service : ServiceState) : ServiceState :=
  if service.pid.isNone then startService fork service else service

lemma demanded_pid {fork : Option Int} {service : ServiceState} :
    (demanded fork service).pid.isNone = false ↔
      service.pid.isSome = true ∨ (service.disabled = false ∧ fork.isSome = true) := by
  unfold demanded startService
  cases hp : service.pid <;> cases hd : service.disabled <;> cases fork <;> simp [hp]

def lookup (services : List ServiceState) (targetName : Text) :
    Option (Nat × ServiceState × TxpcConfig) := do
  let idx ← services.findIdx? fun s => s.txpc.any (·.name = targetName)
  let service ← services[idx]?
  let txpc ← service.txpc
  pure (idx, service, txpc)

def okResponse (txpcWire : Bool) : String := if txpcWire then "TXPC_OK\n" else "OK\n"

def allowed (policy : Option TxpcPolicy) (peerUid : Nat) (clientCaps : Option (List Text)) : Bool :=
  match policy with
  | none => false
  | some policy =>
    if policy.allowAll then true
    else if policy.allowUids.contains peerUid then true
    else if !policy.requireCap.isEmpty then
      match clientCaps with
      | some caps => policy.requireCap.all caps.contains
      | none => false
    else false

def clientCaps (services : List ServiceState) (peerPid : Int) : Option (List Text) := do
  let service ← services.find? (·.pid = some peerPid)
  let txpc ← service.txpc
  txpc.client

/-- The reply to the client. -/
def completeConnect (services : List ServiceState) (w : World) (peerPid : Int) (peerUid : Nat)
    (targetName : Text) (txpcWire : Bool) : String :=
  match lookup services targetName with
  | none => "NOT_FOUND\n"
  | some (_, _, txpc) =>
    if !allowed txpc.policy peerUid (clientCaps services peerPid) then "DENIED policy\n"
    else match w.transfer with
      | .noSocketpair => "ERR syscall_failed\n"
      | .serviceUnreachable => "ERR dispatch_failed\n"
      | .clientUnreachable => ""
      | .done => okResponse txpcWire

/-- One entry of the queue in `drain_pending`: the reply, or nothing while it waits. -/
def drain (services : List ServiceState) (w : World) (pc : PendingConnect) : Option String :=
  if 5000 ≤ w.now - pc.created then some "NOT_FOUND\n"
  else match lookup services pc.targetName with
    | none => some "NOT_FOUND\n"
    | some (_, service, _) =>
      if service.registeredTxpcFd.isNone && service.pid.isNone then some "NOT_FOUND\n"
      else if service.registeredTxpcFd.isNone then none
      else some (completeConnect services w pc.peerPid pc.peerUid pc.targetName pc.txpcWire)

inductive Answer
  | reply (text : String)
  | queued (pc : PendingConnect)

def handleConnect (s : Server) (w : World) (peerPid : Int) (peerUid : Nat) (targetName : Text)
    (txpcWire : Bool) : Server × Answer :=
  match lookup s.services targetName with
  | none => (s, .reply "NOT_FOUND\n")
  | some (idx, service, txpc) =>
    if service.registeredTxpcFd.isNone then
      if txpc.onDemand then
        let service := demanded w.fork service
        let s := { s with services := s.services.set idx service }
        if service.pid.isNone then (s, .reply "NOT_FOUND\n")
        else if w.tryClone then
          let pc := ⟨targetName, peerPid, peerUid, txpcWire, w.now⟩
          ({ s with pendingConnects := s.pendingConnects ++ [pc] }, .queued pc)
        else (s, .reply "ERR syscall_failed\n")
      else (s, .reply "NOT_FOUND\n")
    else (s, .reply (completeConnect s.services w peerPid peerUid targetName txpcWire))

/-! ## Denied connections -/

/-- The reply in the round with the services `later`. -/
def Answer.inRound (later : List ServiceState) (w : World) : Answer → Option String
  | .reply text => some text
  | .queued pc => drain later w pc

/-- Whenever the request is answered with a denial, at once or in any later round with the
same configuration, it has changed nothing. -/
def DeniedHarmless (s : Server) (w : World) (peerPid : Int) (peerUid : Nat) (targetName : Text)
    (txpcWire : Bool) : Prop :=
  let r := handleConnect s w peerPid peerUid targetName txpcWire
  ∀ later w', later.map (·.txpc) = s.services.map (·.txpc) →
    r.2.inRound later w' = some "DENIED policy\n" → r.1 = s

/-- The policy lets the user in whatever the capabilities. -/
def TxpcConfig.Admits (txpc : TxpcConfig) (uid : Nat) : Prop :=
  ∃ policy, txpc.policy = some policy ∧ (policy.allowAll = true ∨ uid ∈ policy.allowUids)

/-- The request is queued for an endpoint that does not admit the user. -/
def QueuedUnchecked (s : Server) (w : World) (peerUid : Nat) (targetName : Text) : Prop :=
  ∃ idx service txpc, lookup s.services targetName = some (idx, service, txpc) ∧
    service.registeredTxpcFd = none ∧ txpc.onDemand = true ∧
    (service.pid.isSome = true ∨ (service.disabled = false ∧ w.fork.isSome = true)) ∧
    w.tryClone = true ∧ ¬ txpc.Admits peerUid

lemma TxpcConfig.admits_iff {txpc : TxpcConfig} {uid : Nat} :
    txpc.Admits uid ↔ allowed txpc.policy uid none = true := by
  rw [Admits]
  cases txpc.policy with
  | none => simp [allowed]
  | some p => cases h : p.allowAll <;> simp [allowed, h]

lemma TxpcConfig.Admits.allowed {txpc : TxpcConfig} {uid : Nat} (h : txpc.Admits uid)
    (caps : Option (List Text)) : allowed txpc.policy uid caps = true := by
  obtain ⟨p, hp, h | h⟩ := h <;> simp [Twinit.allowed, hp, h]

lemma lookup_txpc (services : List ServiceState) (name : Text) :
    (lookup services name).map (·.2.2)
      = ((services.map (·.txpc)).findIdx? (·.any (·.name = name))).bind fun idx =>
          (services.map (·.txpc))[idx]?.join := by
  rw [lookup, findIdx?_map]
  show Option.map _ (Option.bind (findIdx? ((Option.any _) ∘ _) _) _) = _
  cases services.findIdx? ((Option.any fun x => decide (x.name = name)) ∘ (·.txpc)) with
  | none => rfl
  | some idx =>
    rw [Option.bind_some, Option.bind_some, getElem?_map]
    cases services[idx]? with
    | none => rfl
    | some service => cases hs : service.txpc <;> simp [hs]

section

variable {services later : List ServiceState} {name : Text} {idx : Nat} {service : ServiceState}
  {txpc : TxpcConfig}

/-- The endpoint is the same in every round. -/
lemma lookup_later (h : lookup services name = some (idx, service, txpc))
    (hsame : later.map (·.txpc) = services.map (·.txpc)) :
    ∃ idx' service', lookup later name = some (idx', service', txpc) ∧ service' ∈ later := by
  have htxpc := lookup_txpc later name
  rw [hsame, ← lookup_txpc, h] at htxpc
  obtain ⟨⟨idx', service', _⟩, hl, rfl⟩ := Option.map_eq_some_iff.mp htxpc
  refine ⟨idx', service', hl, ?_⟩
  simp only [lookup, Option.bind_eq_bind, Option.bind_eq_some_iff] at hl
  obtain ⟨_, -, _, hget, _, -, heq⟩ := hl
  cases heq
  exact mem_of_getElem? hget

lemma completeConnect_eq (h : lookup services name = some (idx, service, txpc)) (w : World)
    (pid : Int) (uid : Nat) (wire : Bool) :
    completeConnect services w pid uid name wire = "DENIED policy\n" ↔
      allowed txpc.policy uid (clientCaps services pid) = false := by
  rw [completeConnect, h]
  cases ha : allowed txpc.policy uid (clientCaps services pid) with
  | false => simp [ha]
  | true => cases w.transfer <;> cases wire <;> simp [okResponse, ha]

end

/-- A denied CONNECT leaves no trace unless it was queued for an endpoint whose policy does
not admit the user. -/
theorem deniedHarmless_iff (s : Server) (w : World) (peerPid : Int) (peerUid : Nat)
    (targetName : Text) (txpcWire : Bool) :
    DeniedHarmless s w peerPid peerUid targetName txpcWire ↔
      ¬ QueuedUnchecked s w peerUid targetName := by
  unfold DeniedHarmless
  constructor
  · rintro h ⟨idx, service, txpc, hl, hreg, hdemand, hrun, hclone, hno⟩
    simp only [handleConnect, hl, hreg, hdemand, demanded_pid.mpr hrun, hclone, Option.isNone_none, if_true,
      Bool.false_eq_true, if_false, Answer.inRound] at h
    -- a round in which the service has registered and the client is not known
    let later := s.services.map fun x => { x with pid := none, registeredTxpcFd := some 0 }
    have hsame : later.map (·.txpc) = s.services.map (·.txpc) := by simp [later]
    obtain ⟨idx', service', hl', hmem⟩ := lookup_later hl hsame
    have hnew := h later w hsame ?_
    · simpa using congrArg (·.pendingConnects.length) hnew
    have hreg' : service'.registeredTxpcFd = some 0 := by
      obtain ⟨x, -, rfl⟩ := mem_map.mp hmem
      rfl
    have hcaps : clientCaps later peerPid = none := by
      simp [clientCaps, later, find?_eq_none.mpr]
    simp only [drain, Nat.sub_self, hl', hreg', Option.isNone_some, Bool.false_and,
      Bool.false_eq_true, if_false]
    rw [if_neg (by decide), Option.some.injEq, completeConnect_eq hl', hcaps]
    exact Bool.eq_false_iff.mpr fun ha => hno (TxpcConfig.admits_iff.mpr ha)
  · intro hno r later w' hsame hden
    cases hl : lookup s.services targetName with
    | none => simp [r, handleConnect, hl, Answer.inRound] at hden
    | some found =>
      obtain ⟨idx, service, txpc⟩ := found
      obtain ⟨idx', service', hl', -⟩ := lookup_later hl hsame
      simp only [r, handleConnect, hl] at hden ⊢
      split at hden
      · next hreg =>
        -- every reply but the one from the queue says something else
        split at hden
        · next hdemand =>
          split at hden
          · simp [Answer.inRound] at hden
          next hstarted =>
          split at hden
          · next hclone =>
            have hadmits : txpc.Admits peerUid := by
              by_contra ha
              exact hno ⟨idx, service, txpc, hl, Option.isNone_iff_eq_none.mp hreg, hdemand,
                demanded_pid.mp (Bool.eq_false_iff.mpr hstarted), hclone, ha⟩
            simp only [Answer.inRound, drain, hl'] at hden
            split_ifs at hden
            · simp at hden
            · simp at hden
            · rw [Option.some.injEq, completeConnect_eq hl', hadmits.allowed] at hden
              cases hden
          · simp [Answer.inRound] at hden
        · simp [Answer.inRound] at hden
      · next hreg => rw [if_neg hreg]

/-- A user whom no policy admits starts the service and gets the denial when it has registered. -/
theorem denied_starts_service :
    let service : ServiceState := ⟨some ⟨['e'], true, none, none⟩, none, .stopped, 0, false, none⟩
    let w : World := ⟨some 42, true, .done, 0⟩
    let r := handleConnect ⟨[service], []⟩ w 7 1000 ['e'] false
    let later := [{ service with pid := some 42, status := .running, registeredTxpcFd := some 3 }]
    r.1.services.map (·.pid) = [some 42] ∧ r.2.inRound later w = some "DENIED policy\n" ∧
      ¬ DeniedHarmless ⟨[service], []⟩ w 7 1000 ['e'] false := by
  intro service w r later
  refine ⟨by decide, by decide, fun h => ?_⟩
  have hsame := h later w rfl (by decide)
  exact absurd (congrArg (·.pendingConnects.length) hsame) (by decide)

end Twilight.Twinit
