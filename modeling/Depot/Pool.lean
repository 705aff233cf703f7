import Depot.Backend

/-!
# The pool

A bounded set of clients that are lent out one at a time. A party that wants a client needs one of
`maxSize` slots first; it keeps the slot while it owns a client, and while that client is being
destroyed. Idle clients hold no slot. A client is created only by a party that holds a slot and
finds nobody idle, so that there are never more clients than slots.

Slots are given out first come, first served, and idle clients last in, first out. Nothing is
probed: a borrower that saw a failure has its client destroyed instead of giving it back.

The functions here are the moves of the pool between two points where a party has to wait. What the
outside decides (the verdict on an idle client, the outcome of a creation, the time) is given to
them.
-/

set_option autoImplicit false

namespace Depot

/-- The number of a party of the pool. -/
abbrev Ticket := Nat

/-- What a party is doing. -/
inductive Party where
  /-- Waits in line for a slot, until the deadline if there is one. -/
  | waiting (deadline : Option Nat)
  /-- Was given a slot and has not seen to it yet. -/
  | granted
  /-- Destroys an idle client that was found unfit, and will look for another one. -/
  | rejecting (c : Client)
  /-- Creates a client. -/
  | creating
  /-- Has borrowed a client. -/
  | holding (c : Client)
  /-- Destroys the client that it had borrowed. -/
  | invalidating (c : Client)
  /-- Is to destroy a client in the background, and has not begun. -/
  | discarding (c : Client)
  /-- Destroys a client in the background. -/
  | destroying (c : Client)
  /-- Closes the pool: destroys one client, and the others after it. -/
  | closing (c : Client) (rest : List Client)
  deriving DecidableEq, Repr

namespace Party

/-- Whether a party stands in line. -/
def isWaiting : Party → Bool
  | waiting _ => true
  | _ => false

/-- Whether a party holds a slot. -/
def holdsSlot : Party → Bool
  | waiting _ => false
  | closing _ _ => false
  | _ => true

/-- The clients that exist on behalf of a party. -/
def clients : Party → List Client
  | waiting _ => []
  | granted => []
  | rejecting c => [c]
  | creating => []
  | holding c => [c]
  | invalidating c => [c]
  | discarding c => [c]
  | destroying c => [c]
  | closing c rest => c :: rest

end Party

/-- The state of a pool. -/
structure Pool where
  /-- The number of slots. -/
  maxSize : Nat
  /-- The milliseconds that a party waits for a slot; without, it waits until there is one. -/
  wait : Option Nat
  /-- The slots that nobody holds. -/
  free : Nat
  /-- The clients that nobody uses, the one given back last in front. -/
  idle : List Client
  /-- The number of clients as it is shown: those in use or idle, whose destruction has not
  begun. -/
  live : Nat
  closed : Bool
  /-- All parties in the order in which they came. -/
  parties : List (Ticket × Party)
  /-- The number of the next client. -/
  nextClient : Client
  /-- The number of the next party. -/
  nextTicket : Ticket
  /-- Waiting parties for which there is news, in the order in which they are to be told. -/
  called : List Ticket
  deriving DecidableEq, Repr

namespace Pool

/-- A pool without clients, which numbers its clients from `firstClient` on. No size is too large
here, although a semaphore that counts the slots has no room for more than `2 ^ 61 - 1` of them: that
a pool beyond that panics is left out. -/
def new (maxSize : Nat) (wait : Option Nat) (firstClient : Client) : Except StoreError Pool :=
  if maxSize = 0 then .error (.config "pool max_size must be at least 1")
  else .ok ⟨maxSize, wait, maxSize, [], 0, false, [], firstClient, 0, []⟩

/-! ## The table of parties -/

/-- The party of a ticket. -/
def party? (p : Pool) (t : Ticket) : Option Party := p.parties.lookup t

/-- Adds a party at the end of the table, under the next ticket. -/
def enter (p : Pool) (x : Party) : Pool :=
  { p with parties := p.parties ++ [(p.nextTicket, x)], nextTicket := p.nextTicket + 1 }

/-- Changes what the party of a ticket is doing. -/
def put (p : Pool) (t : Ticket) (x : Party) : Pool :=
  { p with parties := p.parties.map fun q => if q.1 = t then (t, x) else q }

/-- Takes the party of a ticket off the table. -/
def leave (p : Pool) (t : Ticket) : Pool :=
  { p with parties := p.parties.filter fun q => q.1 ≠ t }

/-- The tickets in line. -/
def line (p : Pool) : List Ticket := (p.parties.filter (·.2.isWaiting)).map (·.1)

/-- Frees a slot. It goes to the first party in line, unless the pool is closed. -/
def freeSlot (p : Pool) : Pool :=
  match p.closed, p.line with
  | false, t :: _ => { p.put t .granted with called := p.called ++ [t] }
  | _, _ => { p with free := p.free + 1 }

/-! ## Acquiring a client -/

/-- How an acquisition goes on. -/
inductive Progress where
  /-- It has ended without a client. -/
  | failed (e : StoreError)
  /-- It waits in line. -/
  | blocked
  /-- An unfit client is to be destroyed first. -/
  | reject (c : Client)
  /-- A client is to be created. -/
  | create
  /-- It has ended with a client. -/
  | lent (c : Client)
  deriving DecidableEq, Repr

/-- Nobody gave up a slot in time. -/
def exhausted (p : Pool) : StoreError :=
  let wait := p.wait.getD 0
  .poolExhausted s!"no client available within {wait}ms (max {p.maxSize})"

/-- A party that holds a slot takes the newest idle client, if that is fit. -/
def lend (isValid : Client → Bool) (t : Ticket) (p : Pool) : Pool × Progress :=
  match p.idle with
  | [] => (p.put t .creating, .create)
  | c :: rest =>
    if isValid c then ({ p with idle := rest }.put t (.holding c), .lent c)
    else ({ p with idle := rest, live := p.live - 1 }.put t (.rejecting c), .reject c)

/-- A party in line, or with a slot that it has not seen to, looks how things are. A slot counts
more than a deadline that has passed. -/
def proceed (isValid : Client → Bool) (now : Nat) (t : Ticket) (p : Pool) : Pool × Progress :=
  match p.party? t with
  | some (.waiting deadline) =>
    if p.closed then (p.leave t, .failed .poolClosed)
    else if deadline.any (· ≤ now) then (p.leave t, .failed p.exhausted)
    else (p, .blocked)
  | some .granted =>
    if p.closed then ((p.leave t).freeSlot, .failed .poolClosed) else lend isValid t p
  | _ => (p, .blocked)

/-- A new party asks for a client. It gets a free slot at once. -/
def request (isValid : Client → Bool) (now : Nat) (p : Pool) : Pool × Ticket × Progress :=
  let t := p.nextTicket
  if p.closed then (p, t, .failed .poolClosed)
  else
    let p :=
      if p.free = 0 then p.enter (.waiting (p.wait.map (now + ·)))
      else { p with free := p.free - 1 }.enter .granted
    let (p, progress) := p.proceed isValid now t
    (p, t, progress)

/-- The unfit client is destroyed; its party looks for another one. -/
def rejected (isValid : Client → Bool) (t : Ticket) (p : Pool) : Pool × Progress :=
  match p.party? t with
  | some (.rejecting _) => lend isValid t p
  | _ => (p, .blocked)

/-- The creation of a client has come to an end. -/
def created (t : Ticket) (result : Except StoreError Unit) (p : Pool) : Pool × Progress :=
  match p.party? t, result with
  | some .creating, .ok () =>
    let c := p.nextClient
    ({ p with nextClient := c + 1, live := p.live + 1 }.put t (.holding c), .lent c)
  | some .creating, .error e => ((p.leave t).freeSlot, .failed e.toConnectFailed)
  | _, _ => (p, .blocked)

/-! ## Giving a client back -/

/-- A healthy client is given back. Once the pool is closed it is destroyed in the background
instead, and returned here. -/
def release (t : Ticket) (p : Pool) : Pool × Option Client :=
  match p.party? t with
  | some (.holding c) =>
    if p.closed then (p.put t (.discarding c), some c)
    else (({ p with idle := c :: p.idle }.leave t).freeSlot, none)
  | _ => (p, none)

/-- A client is let go of while it is borrowed. It is destroyed in the background. -/
def drop (t : Ticket) (p : Pool) : Pool × Option Client :=
  match p.party? t with
  | some (.holding c) => (p.put t (.discarding c), some c)
  | _ => (p, none)

/-- A client is let go of where nothing can run in the background. It is gone at once. -/
def dropOutside (t : Ticket) (p : Pool) : Pool :=
  match p.party? t with
  | some (.holding _) => ({ p with live := p.live - 1 }.leave t).freeSlot
  | _ => p

/-- A healthy client is given back where nothing can run in the background. -/
def releaseOutside (t : Ticket) (p : Pool) : Pool :=
  if p.closed then p.dropOutside t else (p.release t).1

/-- A borrowed client is to be destroyed by its borrower. -/
def invalidate (t : Ticket) (p : Pool) : Pool × Option Client :=
  match p.party? t with
  | some (.holding c) => ({ p with live := p.live - 1 }.put t (.invalidating c), some c)
  | _ => (p, none)

/-- The borrower has destroyed its client. -/
def invalidated (t : Ticket) (p : Pool) : Pool :=
  match p.party? t with
  | some (.invalidating _) => (p.leave t).freeSlot
  | _ => p

/-- The destruction of a client in the background begins. -/
def startDestroy (t : Ticket) (p : Pool) : Pool × Option Client :=
  match p.party? t with
  | some (.discarding c) => ({ p with live := p.live - 1 }.put t (.destroying c), some c)
  | _ => (p, none)

/-- The destruction of a client in the background has ended. -/
def destroyed (t : Ticket) (p : Pool) : Pool :=
  match p.party? t with
  | some (.destroying _) => (p.leave t).freeSlot
  | _ => p

/-! ## Closing -/

/-- Marks the pool as closed, tells all parties in line, and takes all idle clients to be destroyed,
the one that was given back first in front: it is returned with the ticket of the new party. -/
def close (p : Pool) : Pool × Option (Ticket × Client) :=
  let called := if p.closed then p.called else p.called ++ p.line
  let drained := p.idle.reverse
  let p := { p with closed := true, idle := [], called }
  match drained with
  | [] => (p, none)
  | c :: rest => ({ p with live := p.live - 1 }.enter (.closing c rest), some (p.nextTicket, c))

/-- The client that a closing party destroyed is gone; the next one is returned. -/
def closedOne (t : Ticket) (p : Pool) : Pool × Option Client :=
  match p.party? t with
  | some (.closing _ (c :: rest)) => ({ p with live := p.live - 1 }.put t (.closing c rest), some c)
  | some (.closing _ []) => (p.leave t, none)
  | _ => (p, none)

/-! ## Cancelling -/

/-- A party stops in the middle of what it is doing. A client that it was destroying is gone, its
slot is free, and the clients that a closing party had before it are lost. A client that is borrowed
is let go of by `drop` instead, and what runs in the background cannot be stopped. -/
def cancel (t : Ticket) (p : Pool) : Pool :=
  match p.party? t with
  | some (.waiting _) => p.leave t
  | some .granted => (p.leave t).freeSlot
  | some (.rejecting _) => (p.leave t).freeSlot
  | some .creating => (p.leave t).freeSlot
  | some (.invalidating _) => (p.leave t).freeSlot
  | some (.closing _ _) => p.leave t
  | _ => p

/-- Takes the news that waiting parties are to be told. -/
def takeCalled (p : Pool) : Pool × List Ticket := ({ p with called := [] }, p.called)

end Pool

end Depot
