import Depot.Pool

/-!
# Runs of a pool

A run is any sequence of moves: parties come, get on, give back what they borrowed and are
cancelled, and clients are created and destroyed, in any order and with whatever the outside
decides. A move of a party that is at another point changes nothing, so that every sequence of moves
is a run.

A party that is told of news looks how things are when its turn comes. Until then the news stays
open; a run has settled when none is open.
-/

set_option autoImplicit false

namespace Depot

/-- What a party is there for. -/
inductive Role where
  /-- Wants a client. -/
  | acquisition
  /-- Has a client. -/
  | guard
  /-- Destroys the client that it had. -/
  | invalidation
  /-- Destroys a client in the background. -/
  | background
  /-- Closes the pool. -/
  | closure
  deriving DecidableEq, Repr

namespace Party

/-- What a party is there for. -/
def role : Party → Role
  | waiting _ => .acquisition
  | granted => .acquisition
  | rejecting _ => .acquisition
  | creating => .acquisition
  | holding _ => .guard
  | invalidating _ => .invalidation
  | discarding _ => .background
  | destroying _ => .background
  | closing _ _ => .closure

/-- The client that a party has borrowed. -/
def borrowed : Party → List Client
  | holding c => [c]
  | _ => []

/-- The clients that a party destroys, or is to destroy. -/
def doomed : Party → List Client
  | rejecting c => [c]
  | invalidating c => [c]
  | discarding c => [c]
  | destroying c => [c]
  | closing c rest => c :: rest
  | _ => []

end Party

namespace Pool

/-- A move, with what the outside decides about it. -/
inductive Move where
  /-- A new party asks for a client. -/
  | request (isValid : Client → Bool) (now : Nat)
  /-- A party in line, or with a slot that it has not seen to, looks how things are. -/
  | proceed (isValid : Client → Bool) (now : Nat) (t : Ticket)
  /-- The unfit client of a party is destroyed. -/
  | rejected (isValid : Client → Bool) (t : Ticket)
  /-- The creation of a client has come to an end. -/
  | created (t : Ticket) (result : Except StoreError Unit)
  | release (t : Ticket)
  | releaseOutside (t : Ticket)
  | drop (t : Ticket)
  | dropOutside (t : Ticket)
  | invalidate (t : Ticket)
  /-- The borrower has destroyed its client. -/
  | invalidated (t : Ticket)
  /-- A destruction in the background begins. -/
  | startDestroy (t : Ticket)
  /-- A destruction in the background has ended. -/
  | destroyed (t : Ticket)
  | close
  /-- The client that a closing party destroyed is gone. -/
  | closedOne (t : Ticket)
  | cancel (t : Ticket)

/-- The party of a ticket has looked or is gone: no news is open for it. -/
def heard (t : Ticket) (p : Pool) : Pool := { p with called := p.called.filter (· ≠ t) }

/-- The pool after a move. -/
def move (p : Pool) : Move → Pool
  | .request isValid now => (p.request isValid now).1
  | .proceed isValid now t => ((p.heard t).proceed isValid now t).1
  | .rejected isValid t => (p.rejected isValid t).1
  | .created t result => (p.created t result).1
  | .release t => (p.release t).1
  | .releaseOutside t => p.releaseOutside t
  | .drop t => (p.drop t).1
  | .dropOutside t => p.dropOutside t
  | .invalidate t => (p.invalidate t).1
  | .invalidated t => p.invalidated t
  | .startDestroy t => (p.startDestroy t).1
  | .destroyed t => p.destroyed t
  | .close => p.close.1
  | .closedOne t => (p.closedOne t).1
  | .cancel t => (p.heard t).cancel t

/-- The pool after some moves. -/
def run (p : Pool) (moves : List Move) : Pool := moves.foldl move p

@[simp] theorem run_nil (p : Pool) : p.run [] = p := rfl

@[simp] theorem run_cons (p : Pool) (m : Move) (moves : List Move) :
    p.run (m :: moves) = (p.move m).run moves := rfl

theorem run_append (p : Pool) (first rest : List Move) :
    p.run (first ++ rest) = (p.run first).run rest := List.foldl_append

/-! ## Views -/

/-- The clients that exist: those that nobody uses, and those of the parties. -/
def clients (p : Pool) : List Client := p.idle ++ p.parties.flatMap (·.2.clients)

/-- The clients that are lent out. -/
def borrowed (p : Pool) : List Client := p.parties.flatMap (·.2.borrowed)

/-- The clients that are being destroyed, or are to be. -/
def doomed (p : Pool) : List Client := p.parties.flatMap (·.2.doomed)

/-- The clients created so far by a pool that numbers them from `first` on. -/
def made (first : Client) (p : Pool) : List Client := List.range' first (p.nextClient - first)

/-- The number of slots that are held. -/
def held (p : Pool) : Nat := p.parties.countP (·.2.holdsSlot)

/-- The number of slots that are held by parties of one role. -/
def heldBy (r : Role) (p : Pool) : Nat :=
  p.parties.countP fun q => q.2.holdsSlot && q.2.role == r

/-- The number of clients that are being created. -/
def creating (p : Pool) : Nat := p.parties.countP (·.2 = .creating)

/-- The tickets of the parties that hold a slot. -/
def holders (p : Pool) : List Ticket := (p.parties.filter (·.2.holdsSlot)).map (·.1)

/-- The tickets that are given a slot in some moves, in order. -/
def grants (p : Pool) : List Move → List Ticket
  | [] => []
  | m :: moves => (p.move m).holders.filter (· ∉ p.holders) ++ (p.move m).grants moves

/-- No news is open: every party that was told something has looked since. -/
def Settled (p : Pool) : Prop := p.called = []

end Pool

end Depot
