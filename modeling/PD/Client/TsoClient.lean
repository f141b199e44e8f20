import PD.Lib.Runs
import PD.Lib.Words
import Mathlib.Data.List.Range

/-! # Timestamp requests of the client

An action is what one goroutine does between two points where another may run; each has its `_effect` lemma. -/

namespace PD.TsoClient
open List

def maxMergeTSORequests : Nat := 10000
def errClosing : String := "[pd] closing"
def errTSOLength : String := "[pd] tso length in rpc response is incorrect"
abbrev Stamp := Int × Int
abbrev Answer := Except String Stamp

structure Object where
  done : List (Option String)
  physical : Int
  logical : Int
  deriving DecidableEq

structure Request where
  call : Nat
  addr : Nat
  deriving DecidableEq

inductive Future where
  | waiting
  | returned (a : Answer)
  | canceled (err : String)
  deriving DecidableEq

structure Call where
  addr : Nat
  future : Future
  deriving DecidableEq

structure TsoResponse where
  physical : Int
  logical : Int
  count : Nat
  deriving DecidableEq

structure Round where
  first : Nat
  size : Nat
  reply : Except String TsoResponse
  deriving DecidableEq

/-- `tsLoop` is in `broken` and in `taken` before it reads `len(c.tsoRequests)`. -/
inductive LoopAt where
  | connect
  | broken (err : String)
  | revoke (n : Nat) (err : String)
  | sleep
  | ready
  | taken
  | collect (n : Nat)
  | process
  | finish (physical firstLogical : Int) (err : Option String)
  | failed
  | exited
  deriving DecidableEq

inductive CancelAt where
  | idle
  | holding
  | exited
  deriving DecidableEq

inductive CloseAt where
  | uncalled
  | waiting (old : Nat)
  | revoking (old n : Nat)
  | returned (old : Nat)
  deriving DecidableEq

structure Client where
  heap : List Object
  pool : List Nat
  calls : List Call
  tsoRequests : List Request
  requests : List Request
  finished : Nat
  tsDeadlineCh : Bool
  tsLoop : LoopAt
  tsCancelLoop : CancelAt
  leaderLoopExited : Bool
  closing : CloseAt
  answers : List (Nat × Answer)
  rounds : List Round
  deriving DecidableEq

def newClient : Client := ⟨[], [], [], [], [], 0, false, .connect, .idle, false, .uncalled, [], []⟩

namespace Client
variable (c : Client)

def done : Bool := c.closing != .uncalled

def answerOf (err : Option String) (stamp : Stamp) : Answer :=
  match err with
  | some e => .error e
  | none => .ok stamp

def enqueue (addr : Nat) : Option Client :=
  if c.tsoRequests.length < maxMergeTSORequests then
    some { c with calls := c.calls ++ [⟨addr, .waiting⟩], tsoRequests := c.tsoRequests ++ [⟨c.calls.length, addr⟩] }
  else none

def getTSAsync : Option Nat → Option Client
  | none => enqueue { c with heap := c.heap ++ [⟨[], 0, 0⟩] } c.heap.length
  | some addr =>
    if addr ∈ c.pool then
      enqueue { c with
        pool := c.pool.erase addr
        heap := c.heap.modify addr fun o => { o with physical := 0, logical := 0 } } addr
    else none

/-- A future is waited on once: what a second `Wait` reads belongs to the call that has the object by then. -/
def wait (call : Nat) : Option Client :=
  match c.calls[call]? with
  | some ⟨addr, .waiting⟩ =>
    match c.heap[addr]? with
    | some ⟨err :: rest, physical, logical⟩ =>
      some { c with
        heap := c.heap.set addr ⟨rest, physical, logical⟩
        pool := addr :: c.pool
        calls := c.calls.set call ⟨addr, .returned (answerOf err (physical, logical))⟩ }
    | _ => none
  | _ => none

def waitCanceled (call : Nat) (err : String) : Option Client :=
  match c.calls[call]? with
  | some ⟨addr, .waiting⟩ => some { c with calls := c.calls.set call ⟨addr, .canceled err⟩ }
  | _ => none

def answer (r : Request) (stamp : Option Stamp) (err : Option String) : Option Client :=
  match c.heap[r.addr]? with
  | some o =>
    if o.done.length < 1 then
      let written := stamp.getD (o.physical, o.logical)
      some { c with
        heap := c.heap.set r.addr ⟨o.done ++ [err], written.1, written.2⟩
        answers := c.answers ++ [(r.call, answerOf err written)] }
    else none
  | none => none

def revokeTSORequest (err : String) : Option Client :=
  match c.tsoRequests with
  | r :: rest => answer { c with tsoRequests := rest } r none (some err)
  | [] => none

def finishTSORequest (physical firstLogical : Int) (err : Option String) : Option Client :=
  match c.requests[c.finished]? with
  | some r => answer { c with finished := c.finished + 1 } r
      (some (physical, Words.wrap (firstLogical + c.finished))) err
  | none => none

def takeRequest : Option Client :=
  match c.tsoRequests with
  | r :: rest => some { c with tsoRequests := rest, requests := c.requests ++ [r] }
  | [] => none

def finishAt : Except String TsoResponse → LoopAt
  | .error e => .finish 0 0 (some e)
  | .ok resp =>
    if resp.count ≠ c.requests.length % 2 ^ 32 then .finish 0 0 (some errTSOLength)
    else .finish resp.physical (Words.wrap (resp.logical - ((resp.count + (2 ^ 32 - 1)) % 2 ^ 32 : Nat))) none

def processTSORequests (reply : Except String TsoResponse) : Client :=
  { c with
    tsLoop := c.finishAt reply
    rounds := c.rounds ++ [⟨((c.requests.head?).map Request.call).getD 0, c.requests.length, reply⟩] }

end Client

inductive Action where
  | getTSAsync (reused : Option Nat)
  | wait (call : Nat)
  | waitCanceled (call : Nat) (err : String)
  | connect (err : Option String)
  | count
  | revoke
  | endRevoke
  | wake
  | sleepDone
  | takeFirst
  | readyDone
  | takeNext
  | sendDeadline
  | deadlineDone
  | respond (reply : Except String TsoResponse)
  | finishOne
  | endFinish
  | checkDone
  | takeDeadline
  | endDeadline
  | cancelLoopDone
  | leaderLoopDone
  | close
  | waitGroup
  | closeRevoke
  | closeReturn
  deriving DecidableEq

def step (c : Client) : Action → Option Client
  | .getTSAsync reused => c.getTSAsync reused
  | .wait call => c.wait call
  | .waitCanceled call err => c.waitCanceled call err
  | .connect none => if c.tsLoop = .connect then some { c with tsLoop := .ready } else none
  | .connect (some err) =>
    if c.tsLoop = .connect then
      if c.done then some { c with tsLoop := .exited }
      else some { c with tsLoop := .broken err }
    else none
  | .count =>
    match c.tsLoop with
    | .broken err => some { c with tsLoop := .revoke c.tsoRequests.length err }
    | .taken => some { c with tsLoop := .collect c.tsoRequests.length }
    | _ => none
  | .revoke =>
    match c.tsLoop with
    | .revoke (n+1) err => Client.revokeTSORequest { c with tsLoop := .revoke n err } err
    | _ => none
  | .endRevoke =>
    match c.tsLoop with
    | .revoke 0 _ => some { c with tsLoop := .sleep }
    | _ => none
  | .wake => if c.tsLoop = .sleep then some { c with tsLoop := .connect } else none
  | .sleepDone => if c.tsLoop = .sleep ∧ c.done = true then some { c with tsLoop := .exited } else none
  | .takeFirst => if c.tsLoop = .ready then Client.takeRequest { c with tsLoop := .taken } else none
  | .readyDone => if c.tsLoop = .ready ∧ c.done = true then some { c with tsLoop := .exited } else none
  | .takeNext =>
    match c.tsLoop with
    | .collect (n+1) => Client.takeRequest { c with tsLoop := .collect n }
    | _ => none
  | .sendDeadline =>
    if c.tsLoop = .collect 0 ∧ c.tsDeadlineCh = false then
      some { c with tsDeadlineCh := true, tsLoop := .process }
    else none
  | .deadlineDone =>
    if c.tsLoop = .collect 0 ∧ c.done = true then some { c with requests := [], tsLoop := .exited } else none
  | .respond reply => if c.tsLoop = .process then some (c.processTSORequests reply) else none
  | .finishOne =>
    match c.tsLoop with
    | .finish physical firstLogical err => c.finishTSORequest physical firstLogical err
    | _ => none
  | .endFinish =>
    match c.tsLoop with
    | .finish _ _ err =>
      if c.finished = c.requests.length then
        some { c with requests := [], finished := 0, tsLoop := if err.isSome then .failed else .ready }
      else none
    | _ => none
  | .checkDone =>
    if c.tsLoop = .failed then some { c with tsLoop := if c.done then .exited else .connect } else none
  | .takeDeadline =>
    if c.tsCancelLoop = .idle ∧ c.tsDeadlineCh = true then
      some { c with tsDeadlineCh := false, tsCancelLoop := .holding }
    else none
  | .endDeadline => if c.tsCancelLoop = .holding then some { c with tsCancelLoop := .idle } else none
  | .cancelLoopDone => if c.done then some { c with tsCancelLoop := .exited } else none
  | .leaderLoopDone => if c.done then some { c with leaderLoopExited := true } else none
  | .close => if c.closing = .uncalled then some { c with closing := .waiting c.calls.length } else none
  | .waitGroup =>
    match c.closing with
    | .waiting old =>
      if c.tsLoop = .exited ∧ c.tsCancelLoop = .exited ∧ c.leaderLoopExited = true then
        some { c with closing := .revoking old c.tsoRequests.length }
      else none
    | _ => none
  | .closeRevoke =>
    match c.closing with
    | .revoking old (n+1) => Client.revokeTSORequest { c with closing := .revoking old n } errClosing
    | _ => none
  | .closeReturn =>
    match c.closing with
    | .revoking old 0 => some { c with closing := .returned old }
    | _ => none

def LoopAt.finishing : LoopAt → Bool
  | .finish .. => true
  | _ => false

def LoopAt.Placed (requests : List Request) (finished : Nat) : LoopAt → Prop
  | .taken => finished = 0 ∧ requests.length = 1
  | .collect n => finished = 0 ∧ requests ≠ [] ∧ requests.length + n ≤ maxMergeTSORequests + 1
  | .process => finished = 0 ∧ requests ≠ [] ∧ requests.length ≤ maxMergeTSORequests + 1
  | .finish .. => finished ≤ requests.length ∧ requests ≠ [] ∧ requests.length ≤ maxMergeTSORequests + 1
  | _ => finished = 0 ∧ requests = []

def LoopAt.idle : LoopAt → Bool
  | .taken | .collect _ | .process | .finish .. => false
  | _ => true

def CloseAt.joined : CloseAt → Bool
  | .revoking .. | .returned _ => true
  | _ => false

namespace Client

structure Placed (c : Client) : Prop where
  loop : c.tsLoop.Placed c.requests c.finished
  room : c.tsoRequests.length ≤ maxMergeTSORequests
  joined : c.closing.joined = true → c.tsLoop = .exited

def pending (c : Client) : List Request := c.requests.drop c.finished ++ c.tsoRequests
def base (c : Client) : Nat := c.calls.length - c.pending.length

structure Same (c c' : Client) : Prop where
  heap : c'.heap = c.heap
  pool : c'.pool = c.pool
  calls : c'.calls = c.calls
  pending : c'.pending = c.pending
  answers : c'.answers = c.answers

structure Answered (c c' : Client) (r : Request) (stamp : Option Stamp) (err : Option String) (o : Object) : Prop where
  object : c.heap[r.addr]? = some o
  empty : o.done = []
  heap : c'.heap = c.heap.set r.addr
    ⟨[err], (stamp.getD (o.physical, o.logical)).1, (stamp.getD (o.physical, o.logical)).2⟩
  pool : c'.pool = c.pool
  calls : c'.calls = c.calls
  pending : c.pending = r :: c'.pending
  answers : c'.answers = c.answers ++ [(r.call, answerOf err (stamp.getD (o.physical, o.logical)))]

structure Still (c c' : Client) : Prop where
  loop : c'.tsLoop = c.tsLoop
  requests : c'.requests = c.requests
  finished : c'.finished = c.finished
  rounds : c'.rounds = c.rounds

inductive Effect (c : Client) (a : Action) (c' : Client) : Prop where
  | quiet (same : Same c c') (rounds : c'.rounds = c.rounds) (closing : c'.closing = c.closing)
      (loop : Still c c' ∨ c.tsLoop.finishing = false ∧ c'.tsLoop.finishing = false)
  | closed (same : Same c c') (still : Still c c')
      (closing : c.closing = .uncalled ∧ c'.closing = .waiting c.calls.length ∨
        (∃ old, c.closing = .waiting old ∧ c'.closing = .revoking old c.pending.length) ∨
        ∃ old, c.closing = .revoking old 0 ∧ c'.closing = .returned old)
  | called (addr : Nat)
      (object : addr = c.heap.length ∧ c'.heap = c.heap ++ [⟨[], 0, 0⟩] ∧ c'.pool = c.pool ∨
        addr ∈ c.pool ∧ c'.pool = c.pool.erase addr ∧
          c'.heap = c.heap.modify addr fun o => { o with physical := 0, logical := 0 })
      (calls : c'.calls = c.calls ++ [⟨addr, .waiting⟩])
      (pending : c'.pending = c.pending ++ [⟨c.calls.length, addr⟩]) (answers : c'.answers = c.answers)
      (still : Still c c') (closing : c'.closing = c.closing)
  | returned (call addr : Nat) (o : Object) (err : Option String) (rest : List (Option String))
      (was : c.calls[call]? = some ⟨addr, .waiting⟩) (object : c.heap[addr]? = some o) (value : o.done = err :: rest)
      (heap : c'.heap = c.heap.set addr ⟨rest, o.physical, o.logical⟩) (pool : c'.pool = addr :: c.pool)
      (calls : c'.calls = c.calls.set call ⟨addr, .returned (answerOf err (o.physical, o.logical))⟩)
      (pending : c'.pending = c.pending) (answers : c'.answers = c.answers)
      (still : Still c c') (closing : c'.closing = c.closing)
  | canceled (call addr : Nat) (err : String) (was : c.calls[call]? = some ⟨addr, .waiting⟩)
      (heap : c'.heap = c.heap) (pool : c'.pool = c.pool)
      (calls : c'.calls = c.calls.set call ⟨addr, .canceled err⟩)
      (pending : c'.pending = c.pending) (answers : c'.answers = c.answers)
      (still : Still c c') (closing : c'.closing = c.closing)
  | responded (same : Same c c') (reply : Except String TsoResponse) (loop : c.tsLoop = .process)
      (eq : c' = c.processTSORequests reply)
  | finished (r : Request) (o : Object) (physical firstLogical : Int) (err : Option String)
      (loop : c.tsLoop = .finish physical firstLogical err)
      (answered : Answered c c' r (some (physical, Words.wrap (firstLogical + c.finished))) err o)
      (same : c'.tsLoop = c.tsLoop ∧ c'.requests = c.requests ∧ c'.rounds = c.rounds)
      (next : c'.finished = c.finished + 1) (closing : c'.closing = c.closing)
  | ended (same : Same c c') (before : c.tsLoop.finishing = true) (all : c.finished = c.requests.length)
      (after : c'.tsLoop.finishing = false) (rounds : c'.rounds = c.rounds) (closing : c'.closing = c.closing)
  | revoked (r : Request) (o : Object) (err : String) (answered : Answered c c' r none (some err) o)
      (before : c.tsLoop.finishing = false) (after : c'.tsLoop.finishing = false) (rounds : c'.rounds = c.rounds)
      (closing : c'.closing = c.closing ∨ ∃ old n, c.closing = .revoking old (n+1) ∧ c'.closing = .revoking old n)
  | dropped (action : a = .deadlineDone) (loop : c.tsLoop = .collect 0) (done : c.done = true)
      (heap : c'.heap = c.heap) (pool : c'.pool = c.pool) (calls : c'.calls = c.calls)
      (pending : c.pending = c.requests ++ c'.pending) (answers : c'.answers = c.answers)
      (after : c'.tsLoop.finishing = false) (rounds : c'.rounds = c.rounds) (closing : c'.closing = c.closing)

section
variable {c c' : Client}
variable {r : Request} {stamp : Option Stamp} {err : Option String} {call n old : Nat} {physical firstLogical : Int}
variable {at' : LoopAt} {a : Action}

lemma enqueue_some {addr : Nat} (h : c.enqueue addr = some c') : c.tsoRequests.length < maxMergeTSORequests ∧
    c' = { c with
      calls := c.calls ++ [⟨addr, .waiting⟩]
      tsoRequests := c.tsoRequests ++ [⟨c.calls.length, addr⟩] } := by
  unfold enqueue at h
  split at h
  next hroom => exact ⟨hroom, (Option.some.inj h).symm⟩
  · cases h

lemma answer_some (h : c.answer r stamp err = some c') : ∃ o, c.heap[r.addr]? = some o ∧ o.done = [] ∧ c' = { c with
      heap := c.heap.set r.addr
        ⟨[err], (stamp.getD (o.physical, o.logical)).1, (stamp.getD (o.physical, o.logical)).2⟩
      answers := c.answers ++ [(r.call, answerOf err (stamp.getD (o.physical, o.logical)))] } := by
  simp only [answer] at h
  split at h
  next o ho =>
    split at h
    next _ =>
      have hempty : o.done = [] := eq_nil_of_length_eq_zero (by omega)
      rw [hempty] at h
      exact ⟨o, ho, hempty, (Option.some.inj h).symm⟩
    · cases h
  · cases h

lemma Answered.of_same {t : Client} {o : Object} (h : Answered t c' r stamp err o) (hs : Same c t) :
  Answered c c' r stamp err o where
  object := hs.heap ▸ h.object
  empty := h.empty
  heap := hs.heap ▸ h.heap
  pool := hs.pool ▸ h.pool
  calls := hs.calls ▸ h.calls
  pending := hs.pending ▸ h.pending
  answers := hs.answers ▸ h.answers

lemma getTSAsync_effect (hp : Placed c) {reused : Option Nat} (h : c.getTSAsync reused = some c') :
  Placed c' ∧ Effect c (.getTSAsync reused) c' := by
  cases reused with
  | none =>
    obtain ⟨hroom, rfl⟩ := enqueue_some h
    refine ⟨⟨hp.loop, ?_, hp.joined⟩, .called c.heap.length (.inl ⟨rfl, rfl, rfl⟩) rfl ?_ rfl ⟨rfl, rfl, rfl, rfl⟩ rfl⟩
    · rw [length_append]
      exact hroom
    · exact (append_assoc ..).symm
  | some addr =>
    rw [getTSAsync] at h
    split at h
    next hin =>
      obtain ⟨hroom, rfl⟩ := enqueue_some h
      refine ⟨⟨hp.loop, ?_, hp.joined⟩, .called addr (.inr ⟨hin, rfl, rfl⟩) rfl ?_ rfl ⟨rfl, rfl, rfl, rfl⟩ rfl⟩
      · rw [length_append]
        exact hroom
      · exact (append_assoc ..).symm
    · cases h

lemma wait_effect (hp : Placed c) (h : c.wait call = some c') : Placed c' ∧ Effect c (.wait call) c' := by
  unfold wait at h
  split at h
  next addr hcall =>
    split at h
    next err rest _ _ hobject =>
      cases h
      exact ⟨⟨hp.loop, hp.room, hp.joined⟩, .returned call addr _ err rest hcall hobject rfl rfl rfl rfl rfl rfl
        ⟨rfl, rfl, rfl, rfl⟩ rfl⟩
    · cases h
  · cases h

lemma waitCanceled_effect (hp : Placed c) {err : String} (h : c.waitCanceled call err = some c') :
  Placed c' ∧ Effect c (.waitCanceled call err) c' := by
  unfold waitCanceled at h
  split at h
  next addr hcall =>
    cases h
    exact ⟨⟨hp.loop, hp.room, hp.joined⟩, .canceled call addr err hcall rfl rfl rfl rfl rfl ⟨rfl, rfl, rfl, rfl⟩ rfl⟩
  · cases h

lemma revokeTSORequest_some {err : String} (hreq : c.requests = []) (h : c.revokeTSORequest err = some c') :
  ∃ r o, Answered c c' r none (some err) o ∧ c'.tsoRequests.length ≤ c.tsoRequests.length ∧
    c'.requests = c.requests ∧ c'.finished = c.finished ∧ c'.tsLoop = c.tsLoop ∧ c'.rounds = c.rounds ∧
    c'.closing = c.closing := by
  unfold revokeTSORequest at h
  split at h
  next r rest hqueue =>
    obtain ⟨o, ho, hempty, rfl⟩ := answer_some h
    refine ⟨r, o, ⟨ho, hempty, rfl, rfl, rfl, ?_, rfl⟩, ?_, rfl, rfl, rfl, rfl, rfl⟩
    · show c.requests.drop c.finished ++ c.tsoRequests = r :: (c.requests.drop c.finished ++ rest)
      rw [hreq, hqueue, drop_nil]
      rfl
    rw [hqueue]
    exact Nat.le_succ _
  · cases h

lemma finishTSORequest_some (h : c.finishTSORequest physical firstLogical err = some c') :
  c.finished < c.requests.length ∧
  ∃ r o, Answered c c' r (some (physical, Words.wrap (firstLogical + c.finished))) err o ∧
    c'.finished = c.finished + 1 ∧ c'.requests = c.requests ∧ c'.tsoRequests = c.tsoRequests ∧ c'.tsLoop = c.tsLoop ∧
    c'.rounds = c.rounds ∧ c'.closing = c.closing := by
  unfold finishTSORequest at h
  split at h
  next r hr =>
    obtain ⟨hlt, hget⟩ := List.getElem?_eq_some_iff.mp hr
    obtain ⟨o, ho, hempty, rfl⟩ := answer_some h
    refine ⟨hlt, r, o, ⟨ho, hempty, rfl, rfl, rfl, ?_, rfl⟩, rfl, rfl, rfl, rfl, rfl, rfl⟩
    show c.requests.drop c.finished ++ c.tsoRequests = r :: (c.requests.drop (c.finished + 1) ++ c.tsoRequests)
    rw [drop_eq_getElem_cons hlt, hget]
    rfl
  · cases h

lemma placed_idle {requests : List Request} {finished : Nat} (h : at'.idle = true) :
  at'.Placed requests finished ↔ finished = 0 ∧ requests = [] := by
  cases at' with
  | taken => cases h
  | collect => cases h
  | process => cases h
  | finish => cases h
  | _ => exact Iff.rfl

lemma not_finishing_of_idle (h : at'.idle = true) : at'.finishing = false := by
  cases at' with
  | finish => cases h
  | _ => rfl

lemma placed_finishAt {reply : Except String TsoResponse} (h : LoopAt.process.Placed c.requests c.finished) :
  (c.finishAt reply).Placed c.requests c.finished := by
  have hplaced : c.finished ≤ c.requests.length ∧ c.requests ≠ [] ∧ c.requests.length ≤ maxMergeTSORequests + 1 :=
    ⟨by rw [h.1]; exact Nat.zero_le _, h.2⟩
  unfold finishAt
  split
  · exact hplaced
  · split <;> exact hplaced

section
variable (hp : Placed c)
include hp

lemma move_spec {was : LoopAt} (hat : c.tsLoop = was) (hidle : was.idle = true) (hrun : was ≠ .exited)
  (hidle' : at'.idle = true) : Placed { c with tsLoop := at' } ∧ Effect c a { c with tsLoop := at' } := by
  subst hat
  obtain ⟨hloop, hroom, hjoined⟩ := hp
  refine ⟨⟨(placed_idle hidle').mpr ((placed_idle hidle).mp hloop), hroom, fun hj => absurd (hjoined hj) hrun⟩, ?_⟩
  exact .quiet ⟨rfl, rfl, rfl, rfl, rfl⟩ rfl rfl (.inr ⟨not_finishing_of_idle hidle, not_finishing_of_idle hidle'⟩)

lemma aside_spec (same : Same c c') (still : Still c c')
  (queue : c'.tsoRequests = c.tsoRequests) (closing : c'.closing = c.closing) : Placed c' ∧ Effect c a c' := by
  obtain ⟨hloop, hroom, hjoined⟩ := hp
  refine ⟨⟨?_, by rw [queue]; exact hroom, fun hj => ?_⟩, .quiet same still.rounds closing (.inl still)⟩
  · rw [still.loop, still.requests, still.finished]
    exact hloop
  rw [closing] at hj
  rw [still.loop]
  exact hjoined hj

lemma revoke_effect {err : String} (hat : c.tsLoop = .revoke (n+1) err)
  (h : revokeTSORequest { c with tsLoop := .revoke n err } err = some c') : Placed c' ∧ Effect c .revoke c' := by
  obtain ⟨hloop, hroom, hjoined⟩ := hp
  rw [hat] at hloop
  obtain ⟨r, o, hans, hlen, hreq, hfin, hat', hrounds, hclosing⟩ :=
    revokeTSORequest_some (c := { c with tsLoop := .revoke n err }) hloop.2 h
  refine ⟨⟨?_, hlen.trans hroom, fun hj => ?_⟩,
    .revoked r o err (hans.of_same ⟨rfl, rfl, rfl, rfl, rfl⟩) (by rw [hat]; rfl) (by rw [hat']; rfl) hrounds
      (.inl hclosing)⟩
  · rw [hat', hreq, hfin]
    exact hloop
  rw [hclosing] at hj
  rw [hat] at hjoined
  cases hjoined hj

lemma take_effect {was : LoopAt} (hat : c.tsLoop = was) (hfin : c.finished = 0) (hrun : was ≠ .exited)
  (hbefore : was.finishing = false) (hafter : at'.finishing = false)
  (hplaced : ∀ r, at'.Placed (c.requests ++ [r]) 0) (h : takeRequest { c with tsLoop := at' } = some c') :
  Placed c' ∧ Effect c a c' := by
  subst hat
  obtain ⟨hloop, hroom, hjoined⟩ := hp
  unfold takeRequest at h
  split at h
  next r rest hqueue =>
    change c.tsoRequests = r :: rest at hqueue
    cases h
    refine ⟨⟨?_, ?_, fun hj => absurd (hjoined hj) hrun⟩,
      .quiet ⟨rfl, rfl, rfl, ?_, rfl⟩ rfl rfl (.inr ⟨hbefore, hafter⟩)⟩
    · show at'.Placed (c.requests ++ [r]) c.finished
      rw [hfin]
      exact hplaced r
    · rw [hqueue, length_cons] at hroom
      exact Nat.le_of_succ_le hroom
    show (c.requests ++ [r]).drop c.finished ++ rest = c.requests.drop c.finished ++ c.tsoRequests
    rw [hfin, hqueue, drop_zero, drop_zero, append_assoc]
    rfl
  · cases h

lemma count_effect (hat : c.tsLoop = .taken) : Placed { c with tsLoop := .collect c.tsoRequests.length } ∧
      Effect c .count { c with tsLoop := .collect c.tsoRequests.length } := by
  obtain ⟨hloop, hroom, hjoined⟩ := hp
  rw [hat] at hloop hjoined
  refine ⟨⟨⟨hloop.1, ne_nil_of_length_eq_add_one hloop.2, ?_⟩, hroom, fun hj => ?_⟩,
    .quiet ⟨rfl, rfl, rfl, rfl, rfl⟩ rfl rfl (.inr ⟨by rw [hat]; rfl, rfl⟩)⟩
  · rw [hloop.2, Nat.add_comm]
    exact Nat.succ_le_succ hroom
  cases hjoined hj

lemma sendDeadline_effect (hat : c.tsLoop = .collect 0) : Placed { c with tsDeadlineCh := true, tsLoop := .process } ∧
      Effect c .sendDeadline { c with tsDeadlineCh := true, tsLoop := .process } := by
  obtain ⟨hloop, hroom, hjoined⟩ := hp
  rw [hat] at hloop hjoined
  refine ⟨⟨hloop, hroom, fun hj => ?_⟩, .quiet ⟨rfl, rfl, rfl, rfl, rfl⟩ rfl rfl (.inr ⟨by rw [hat]; rfl, rfl⟩)⟩
  cases hjoined hj

lemma deadlineDone_effect (hat : c.tsLoop = .collect 0) (hdone : c.done = true) :
    Placed { c with requests := [], tsLoop := .exited } ∧
      Effect c .deadlineDone { c with requests := [], tsLoop := .exited } := by
  obtain ⟨hloop, hroom, hjoined⟩ := hp
  rw [hat] at hloop
  refine ⟨⟨⟨hloop.1, rfl⟩, hroom, fun _ => rfl⟩, .dropped rfl hat hdone rfl rfl rfl ?_ rfl rfl rfl rfl⟩
  show c.requests.drop c.finished ++ c.tsoRequests = c.requests ++ (List.drop c.finished [] ++ c.tsoRequests)
  rw [hloop.1]
  rfl

lemma respond_effect (reply : Except String TsoResponse) (hat : c.tsLoop = .process) :
  Placed (c.processTSORequests reply) ∧ Effect c (.respond reply) (c.processTSORequests reply) := by
  obtain ⟨hloop, hroom, hjoined⟩ := hp
  rw [hat] at hloop hjoined
  refine ⟨⟨placed_finishAt hloop, hroom, fun hj => ?_⟩, .responded ⟨rfl, rfl, rfl, rfl, rfl⟩ reply hat rfl⟩
  cases hjoined hj

lemma finishOne_effect (hat : c.tsLoop = .finish physical firstLogical err)
  (h : c.finishTSORequest physical firstLogical err = some c') : Placed c' ∧ Effect c .finishOne c' := by
  obtain ⟨hloop, hroom, hjoined⟩ := hp
  rw [hat] at hloop hjoined
  obtain ⟨hlt, r, o, hans, hfin, hreq, hqueue, hat', hrounds, hclosing⟩ := finishTSORequest_some h
  refine ⟨⟨?_, ?_, fun hj => ?_⟩, .finished r o physical firstLogical err hat hans ⟨hat', hreq, hrounds⟩ hfin hclosing⟩
  · rw [hat', hat, hreq, hfin]
    exact ⟨hlt, hloop.2⟩
  · rw [hqueue]
    exact hroom
  rw [hclosing] at hj
  cases hjoined hj

end

lemma endFinish_effect (hp : Placed c) (hat : c.tsLoop = .finish physical firstLogical err)
    (hall : c.finished = c.requests.length) (hidle : at'.idle = true) :
    Placed { c with requests := [], finished := 0, tsLoop := at' } ∧
      Effect c .endFinish { c with requests := [], finished := 0, tsLoop := at' } := by
  obtain ⟨hloop, hroom, hjoined⟩ := hp
  rw [hat] at hjoined
  refine ⟨⟨(placed_idle hidle).mpr ⟨rfl, rfl⟩, hroom, fun hj => ?_⟩,
    .ended ⟨rfl, rfl, rfl, ?_, rfl⟩ (by rw [hat]; rfl) hall (not_finishing_of_idle hidle) rfl rfl⟩
  · cases hjoined hj
  show List.drop 0 [] ++ c.tsoRequests = c.requests.drop c.finished ++ c.tsoRequests
  rw [hall, drop_length]
  rfl

lemma close_effect (hp : Placed c) (hclosing : c.closing = .uncalled) :
    Placed { c with closing := .waiting c.calls.length } ∧
      Effect c .close { c with closing := .waiting c.calls.length } := by
  refine ⟨⟨hp.loop, hp.room, fun hj => ?_⟩,
    .closed ⟨rfl, rfl, rfl, rfl, rfl⟩ ⟨rfl, rfl, rfl, rfl⟩ (.inl ⟨hclosing, rfl⟩)⟩
  cases hj

lemma waitGroup_effect (hp : Placed c) (hclosing : c.closing = .waiting old) (hexited : c.tsLoop = .exited) :
    Placed { c with closing := .revoking old c.tsoRequests.length } ∧
      Effect c .waitGroup { c with closing := .revoking old c.tsoRequests.length } := by
  obtain ⟨hloop, hroom, hjoined⟩ := hp
  rw [hexited] at hloop
  have hpending : c.pending.length = c.tsoRequests.length := by
    unfold pending
    rw [hloop.2, drop_nil, nil_append]
  exact ⟨⟨by rw [hexited]; exact hloop, hroom, fun _ => hexited⟩,
    .closed ⟨rfl, rfl, rfl, rfl, rfl⟩ ⟨rfl, rfl, rfl, rfl⟩ (.inr (.inl ⟨old, hclosing, by rw [hpending]⟩))⟩

lemma closeRevoke_effect (hp : Placed c) (hclosing : c.closing = .revoking old (n+1))
    (h : revokeTSORequest { c with closing := .revoking old n } errClosing = some c') :
    Placed c' ∧ Effect c .closeRevoke c' := by
  obtain ⟨hloop, hroom, hjoined⟩ := hp
  have hexited : c.tsLoop = .exited := hjoined (by rw [hclosing]; rfl)
  rw [hexited] at hloop
  obtain ⟨r, o, hans, hlen, hreq, hfin, hat', hrounds, hclosing'⟩ :=
    revokeTSORequest_some (c := { c with closing := .revoking old n }) hloop.2 h
  rw [hexited] at hat'
  refine ⟨⟨?_, hlen.trans hroom, fun _ => hat'⟩,
    .revoked r o errClosing (hans.of_same ⟨rfl, rfl, rfl, rfl, rfl⟩) (by rw [hexited]; rfl) (by rw [hat']; rfl)
      hrounds (.inr ⟨old, n, hclosing, hclosing'⟩)⟩
  rw [hat', hreq, hfin]
  exact hloop

lemma closeReturn_effect (hp : Placed c) (hclosing : c.closing = .revoking old 0) :
  Placed { c with closing := .returned old } ∧ Effect c .closeReturn { c with closing := .returned old } := by
  obtain ⟨hloop, hroom, hjoined⟩ := hp
  rw [hclosing] at hjoined
  exact ⟨⟨hloop, hroom, fun _ => hjoined rfl⟩,
    .closed ⟨rfl, rfl, rfl, rfl, rfl⟩ ⟨rfl, rfl, rfl, rfl⟩ (.inr (.inr ⟨old, hclosing, rfl⟩))⟩

lemma step_spec (hp : Placed c) (h : step c a = some c') : Placed c' ∧ Effect c a c' := by
  cases a with
  | getTSAsync => exact getTSAsync_effect hp h
  | wait => exact wait_effect hp h
  | waitCanceled => exact waitCanceled_effect hp h
  | connect err =>
    cases err with
    | none =>
      rw [step] at h
      split at h
      next hat =>
        cases h
        exact move_spec hp hat rfl LoopAt.noConfusion rfl
      · cases h
    | some =>
      rw [step] at h
      split at h
      next hat =>
        split at h
        · cases h
          exact move_spec hp hat rfl LoopAt.noConfusion rfl
        cases h
        exact move_spec hp hat rfl LoopAt.noConfusion rfl
      · cases h
  | count =>
    rw [step] at h
    split at h
    next _ hat =>
      cases h
      exact move_spec hp hat rfl LoopAt.noConfusion rfl
    next hat =>
      cases h
      exact count_effect hp hat
    · cases h
  | revoke =>
    rw [step] at h
    split at h
    next n _ hat => exact revoke_effect hp hat h
    · cases h
  | endRevoke =>
    rw [step] at h
    split at h
    next _ hat =>
      cases h
      exact move_spec hp hat rfl LoopAt.noConfusion rfl
    · cases h
  | wake =>
    rw [step] at h
    split at h
    next hat =>
      cases h
      exact move_spec hp hat rfl LoopAt.noConfusion rfl
    · cases h
  | sleepDone | readyDone =>
    rw [step] at h
    split at h
    next hat =>
      cases h
      exact move_spec hp hat.1 rfl LoopAt.noConfusion rfl
    · cases h
  | takeFirst =>
    rw [step] at h
    split at h
    next hat =>
      have hloop := hp.loop
      rw [hat] at hloop
      refine take_effect hp hat hloop.1 LoopAt.noConfusion rfl rfl (fun r => ?_) h
      exact ⟨rfl, by rw [hloop.2]; rfl⟩
    · cases h
  | takeNext =>
    rw [step] at h
    split at h
    next n hat =>
      have hloop := hp.loop
      rw [hat] at hloop
      refine take_effect hp hat hloop.1 LoopAt.noConfusion rfl rfl (fun r => ?_) h
      have hmore := hloop.2.2
      refine ⟨rfl, append_ne_nil_of_right_ne_nil _ (cons_ne_nil _ _), ?_⟩
      rw [length_append, length_singleton]
      omega
    · cases h
  | sendDeadline =>
    rw [step] at h
    split at h
    next hat =>
      cases h
      exact sendDeadline_effect hp hat.1
    · cases h
  | deadlineDone =>
    rw [step] at h
    split at h
    next hat =>
      cases h
      exact deadlineDone_effect hp hat.1 hat.2
    · cases h
  | respond reply =>
    rw [step] at h
    split at h
    next hat =>
      cases h
      exact respond_effect hp reply hat
    · cases h
  | finishOne =>
    rw [step] at h
    split at h
    next _ _ _ hat => exact finishOne_effect hp hat h
    · cases h
  | endFinish =>
    rw [step] at h
    split at h
    next _ _ _ hat =>
      split at h
      next hall =>
        cases h
        refine endFinish_effect hp hat hall ?_
        split <;> rfl
      · cases h
    · cases h
  | checkDone =>
    rw [step] at h
    split at h
    next hat =>
      cases h
      refine move_spec hp hat rfl LoopAt.noConfusion ?_
      split <;> rfl
    · cases h
  | takeDeadline | endDeadline | cancelLoopDone | leaderLoopDone =>
    rw [step] at h
    split at h
    · cases h
      exact aside_spec hp ⟨rfl, rfl, rfl, rfl, rfl⟩ ⟨rfl, rfl, rfl, rfl⟩ rfl rfl
    · cases h
  | close =>
    rw [step] at h
    split at h
    next hclosing =>
      cases h
      exact close_effect hp hclosing
    · cases h
  | waitGroup =>
    rw [step] at h
    split at h
    next _ hclosing =>
      split at h
      next hexited =>
        cases h
        exact waitGroup_effect hp hclosing hexited.1
      · cases h
    · cases h
  | closeRevoke =>
    rw [step] at h
    split at h
    next _ n hclosing => exact closeRevoke_effect hp hclosing h
    · cases h
  | closeReturn =>
    rw [step] at h
    split at h
    next _ hclosing =>
      cases h
      exact closeReturn_effect hp hclosing
    · cases h

end
end Client
end PD.TsoClient
