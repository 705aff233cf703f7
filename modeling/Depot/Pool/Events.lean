import Depot.Pool.Run

/-!
# What happens in a run of a pool

The events of a move: acquisitions end, clients are taken out of use, their destruction begins, and
they are gone. The log of a run has the events of its moves in order.
-/

set_option autoImplicit false

namespace Depot.Pool

/-- How a client came to its end. -/
inductive Fate where
  /-- Its destruction ran to the end, with whatever result. -/
  | destroyed
  /-- Its borrower, or the acquisition that found it unfit, was cancelled while destroying it. -/
  | cutOff
  /-- It was let go of where nothing can run in the background. -/
  | letGo
  /-- The closing party that had it in hand was cancelled. -/
  | abandoned
  deriving DecidableEq, Repr

/-- What happens to an acquisition or to a client. -/
inductive Event where
  /-- An acquisition ends with a client. -/
  | lent (t : Ticket) (c : Client)
  /-- An acquisition ends without a client. -/
  | failed (t : Ticket) (e : StoreError)
  /-- A client is not to be used any more. -/
  | withdrawn (c : Client)
  /-- The destruction of a client begins. -/
  | begun (c : Client)
  | gone (c : Client) (fate : Fate)
  /-- A party stops in the middle of what it is doing. -/
  | cancelled (t : Ticket)
  deriving DecidableEq

/-- What the next step of an acquisition brings about. -/
def Progress.events (t : Ticket) : Progress → List Event
  | failed e => [.failed t e]
  | blocked => []
  | reject c => [.withdrawn c, .begun c]
  | create => []
  | lent c => [.lent t c]

/-- What a move brings about. -/
def events (p : Pool) : Move → List Event
  | .request isValid now =>
    let (_, t, progress) := p.request isValid now
    progress.events t
  | .proceed isValid now t => ((p.heard t).proceed isValid now t).2.events t
  | .rejected isValid t =>
    match p.party? t with
    | some (.rejecting c) => .gone c .destroyed :: (p.rejected isValid t).2.events t
    | _ => []
  | .created t result => (p.created t result).2.events t
  | .release t => ((p.release t).2.map .withdrawn).toList
  | .releaseOutside t =>
    match p.party? t with
    | some (.holding c) => if p.closed then [.withdrawn c, .gone c .letGo] else []
    | _ => []
  | .drop t => ((p.drop t).2.map .withdrawn).toList
  | .dropOutside t =>
    match p.party? t with
    | some (.holding c) => [.withdrawn c, .gone c .letGo]
    | _ => []
  | .invalidate t =>
    match (p.invalidate t).2 with
    | some c => [.withdrawn c, .begun c]
    | none => []
  | .invalidated t =>
    match p.party? t with
    | some (.invalidating c) => [.gone c .destroyed]
    | _ => []
  | .startDestroy t => ((p.startDestroy t).2.map .begun).toList
  | .destroyed t =>
    match p.party? t with
    | some (.destroying c) => [.gone c .destroyed]
    | _ => []
  | .close =>
    match p.close.2 with
    | some (_, c) => p.idle.map .withdrawn ++ [.begun c]
    | none => []
  | .closedOne t =>
    match p.party? t with
    | some (.closing c _) => .gone c .destroyed :: ((p.closedOne t).2.map .begun).toList
    | _ => []
  | .cancel t =>
    match p.party? t with
    | some (.waiting _) => [.cancelled t]
    | some .granted => [.cancelled t]
    | some (.rejecting c) => [.cancelled t, .gone c .cutOff]
    | some .creating => [.cancelled t]
    | some (.invalidating c) => [.cancelled t, .gone c .cutOff]
    | some (.closing c rest) => .cancelled t :: (c :: rest).map (.gone · .abandoned)
    | _ => []

/-- What some moves bring about, in order. -/
def log (p : Pool) : List Move → List Event
  | [] => []
  | m :: moves => p.events m ++ (p.move m).log moves

@[simp] theorem log_nil (p : Pool) : p.log [] = [] := rfl

@[simp] theorem log_cons (p : Pool) (m : Move) (moves : List Move) :
    p.log (m :: moves) = p.events m ++ (p.move m).log moves := rfl

theorem log_append (p : Pool) (first rest : List Move) :
    p.log (first ++ rest) = p.log first ++ (p.run first).log rest := by
  induction first generalizing p with
  | nil => rfl
  | cons m first ih => simp [ih]

/-- The clients that were taken out of use, in order. -/
def withdrawn (es : List Event) : List Client :=
  es.filterMap fun
    | .withdrawn c => some c
    | _ => none

/-- The clients whose destruction began, in order. -/
def begun (es : List Event) : List Client :=
  es.filterMap fun
    | .begun c => some c
    | _ => none

/-- The clients that are gone, in order. -/
def gone (es : List Event) : List Client :=
  es.filterMap fun
    | .gone c _ => some c
    | _ => none

/-- The clients that came to one kind of end, in order. -/
def goneBy (fate : Fate) (es : List Event) : List Client :=
  es.filterMap fun
    | .gone c f => if f = fate then some c else none
    | _ => none

section Append

variable (es fs : List Event)

@[simp] theorem withdrawn_append : withdrawn (es ++ fs) = withdrawn es ++ withdrawn fs :=
  List.filterMap_append

@[simp] theorem begun_append : begun (es ++ fs) = begun es ++ begun fs := List.filterMap_append

@[simp] theorem gone_append : gone (es ++ fs) = gone es ++ gone fs := List.filterMap_append

@[simp] theorem goneBy_append (fate : Fate) :
    goneBy fate (es ++ fs) = goneBy fate es ++ goneBy fate fs := List.filterMap_append

end Append

theorem mem_withdrawn {es : List Event} {c : Client} : c ∈ withdrawn es ↔ .withdrawn c ∈ es := by
  simp only [withdrawn, List.mem_filterMap]
  constructor
  · rintro ⟨e, he, h⟩
    cases e <;> simp at h
    exact h ▸ he
  · exact fun h => ⟨_, h, rfl⟩

/-! ## Clients that are not to be used again -/

/-- The verdict that comes with a move on an idle client that is looked at. -/
def Move.accepts : Move → Client → Bool
  | .request isValid _, c => isValid c
  | .proceed isValid _ _, c => isValid c
  | .rejected isValid _, c => isValid c
  | _, _ => false

/-- A move takes a client out of use for good. -/
inductive Retires (p : Pool) : Move → Client → Prop where
  | invalidated {t : Ticket} {c : Client} : p.party? t = some (.holding c) →
      Retires p (.invalidate t) c
  | dropped {t : Ticket} {c : Client} : p.party? t = some (.holding c) → Retires p (.drop t) c
  | droppedOutside {t : Ticket} {c : Client} : p.party? t = some (.holding c) →
      Retires p (.dropOutside t) c
  /-- It is given back after the pool was closed. -/
  | late {t : Ticket} {c : Client} : p.closed = true → p.party? t = some (.holding c) →
      Retires p (.release t) c
  | lateOutside {t : Ticket} {c : Client} : p.closed = true → p.party? t = some (.holding c) →
      Retires p (.releaseOutside t) c
  /-- It is taken out of the idle clients without having been found fit. -/
  | unfit {m : Move} {c : Client} : c ∈ p.idle → c ∉ (p.move m).idle → m.accepts c = false →
      Retires p m c

end Depot.Pool
