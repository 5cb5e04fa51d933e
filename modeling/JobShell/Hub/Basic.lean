import JobShell.Slab

/-!
Hubs: one-time announcements of a status.

A hub completes once and then calls its subscribers. Hubs form trees. A parent counts the children
it still waits for and, once sealed, completes when the last one reports; its status is that of the
child added last among those nobody had subscribed to. A subscriber of a child takes that decision
over. A hub that completed is dropped when no one waits for it and no one retains it.

Subscribers may do anything, so what is left of a completion while they run is kept as a list of
duties. Doing one duty changes the hubs, may name one subscriber to call now, and may leave further
duties, which come before those that were there.
-/

namespace JobShell

abbrev HubId := Nat

/-- A hub whose subscribers are of type `κ`. -/
structure Hub (κ : Type) where
  parent : Option HubId := none
  /-- The position among the parent's children. -/
  order : Nat := 0
  nextOrder : Nat := 0
  /-- The number of children that have not reported. -/
  pending : Nat := 0
  isSealed : Bool := false
  /-- The last child that left its status to this hub, with its position. -/
  latest : Option (Nat × Int) := none
  /-- The status asked for while children were pending. -/
  requested : Option Int := none
  status : Option Int := none
  subscribers : List (Nat × κ) := []
  nextKey : Nat := 0
  retained : Nat := 0

namespace Hub

variable {κ : Type}

/-- The status of a hub whose children have all reported. -/
def aggregate (h : Hub κ) : Int := (h.requested <|> h.latest.map (·.2)).getD 0

def isSpent (h : Hub κ) : Bool := h.status.isSome && h.subscribers.isEmpty && h.retained == 0

/-- A hub that has one more child. -/
def withChild (h : Hub κ) : Hub κ :=
  { h with nextOrder := h.nextOrder + 1, pending := h.pending + 1 }

/-- A hub that has one more subscriber. -/
def subscribed (h : Hub κ) (callback : κ) : Hub κ :=
  { h with nextKey := h.nextKey + 1, subscribers := h.subscribers ++ [(h.nextKey, callback)] }

/-- A hub that has lost a subscriber. -/
def without (h : Hub κ) (key : Nat) : Hub κ :=
  { h with subscribers := h.subscribers.filter (·.1 != key) }

def released (h : Hub κ) : Hub κ := { h with retained := h.retained - 1 }

/-- A hub that has heard of a child. -/
def heard (h : Hub κ) (order : Nat) (status : Int) (contributes : Bool) : Hub κ :=
  { h with
    pending := h.pending - 1
    latest := if contributes ∧ h.latest.all (·.1 ≤ order) then some (order, status) else h.latest }

end Hub

abbrev Hubs (κ : Type) := Slab (Hub κ)

inductive Duty where
  /-- Complete a hub, unless it has a status or children it waits for. -/
  | notify (hub : HubId) (status : Int)
  /-- Complete a hub that gets no more children. -/
  | sealOff (hub : HubId)
  | deliver (hub : HubId) (status : Int) (keys : List Nat)
  /-- Tell a parent that the child at a position is done, and whether it takes its status. -/
  | report (parent : HubId) (order : Nat) (status : Int) (contributes : Bool)
  /-- Drop a hub that is spent. -/
  | settle (hub : HubId)
  deriving DecidableEq

/-- What follows once a hub has a status: its subscribers are called first, then its parent hears
of it, and then it may be dropped. -/
def Hub.duties {κ : Type} (hub : HubId) (h : Hub κ) (status : Int) : List Duty :=
  .deliver hub status (h.subscribers.map (·.1)) ::
    (h.parent.elim [] fun p => [.report p h.order status h.subscribers.isEmpty]) ++ [.settle hub]

namespace Hubs

variable {κ : Type}

def update (hs : Hubs κ) (hub : HubId) (f : Hub κ → Hub κ) : Hubs κ := Slab.modify hs hub f

def status? (hs : Hubs κ) (hub : HubId) : Option Int := (hs.get? hub).bind (·.status)

/-- Attaches a child; a parent that completed takes no more. -/
def addChild (hs : Hubs κ) (parent child : HubId) : Hubs κ :=
  match hs.get? parent with
  | none => hs
  | some p =>
    if p.status.isSome then hs
    else
      (hs.update parent Hub.withChild).update child fun c =>
        { c with parent := some parent, order := p.nextOrder }

def create (hs : Hubs κ) (parent : Option HubId) : HubId × Hubs κ :=
  let id := hs.next
  let hs : Hubs κ := hs.insert {}
  (id, parent.elim hs (hs.addChild · id))

/-- Enters a subscriber and returns its key; `none` if there is no such hub. One that subscribes
to a hub that completed is called later, when the hub is flushed. -/
def subscribe (hs : Hubs κ) (hub : HubId) (callback : κ) : Option (Nat × Hubs κ) :=
  (hs.get? hub).map fun h => (h.nextKey, hs.update hub (·.subscribed callback))

def settle (hs : Hubs κ) (hub : HubId) : Hubs κ :=
  if (hs.get? hub).any Hub.isSpent then hs.erase hub else hs

/-- Removes a subscriber that has not been called, and says whether there was one. -/
def unsubscribe (hs : Hubs κ) (hub : HubId) (key : Nat) : Bool × Hubs κ :=
  match hs.get? hub with
  | none => (false, hs)
  | some h =>
    if h.subscribers.any (·.1 == key) then
      (true, (hs.update hub (·.without key)).settle hub)
    else (false, hs)

def retain (hs : Hubs κ) (hub : HubId) : Hubs κ :=
  hs.update hub fun h => { h with retained := h.retained + 1 }

def release (hs : Hubs κ) (hub : HubId) : Hubs κ :=
  (hs.update hub Hub.released).settle hub

/-! ### Completion -/

/-- Gives a hub its status. -/
def fire (hs : Hubs κ) (hub : HubId) (h : Hub κ) (status : Int) : Hubs κ × List Duty :=
  (hs.update hub fun h => { h with status := some status }, h.duties hub status)

def flush (hs : Hubs κ) (hub : HubId) : List Duty :=
  match hs.get? hub with
  | some h =>
    match h.status with
    | some status => [.deliver hub status (h.subscribers.map (·.1)), .settle hub]
    | none => []
  | none => []

def notify (hs : Hubs κ) (hub : HubId) (status : Int) : Hubs κ × List Duty :=
  match hs.get? hub with
  | none => (hs, [])
  | some h =>
    if h.status.isSome then (hs, [])
    else if 0 < h.pending then
      (hs.update hub fun h =>
        { h with requested := h.requested <|> some status, isSealed := true }, [])
    else hs.fire hub h status

def sealOff (hs : Hubs κ) (hub : HubId) : Hubs κ × List Duty :=
  match hs.get? hub with
  | none => (hs, [])
  | some h =>
    if h.status.isSome then (hs, [])
    else
      let hs := hs.update hub fun h => { h with isSealed := true }
      if h.pending = 0 then hs.fire hub h h.aggregate else (hs, [])

def report (hs : Hubs κ) (parent : HubId) (order : Nat) (status : Int) (contributes : Bool) :
    Hubs κ × List Duty :=
  match hs.get? parent with
  | none => (hs, [])
  | some p =>
    if p.status.isSome then (hs, [])
    else
      let p := p.heard order status contributes
      let hs := hs.update parent fun _ => p
      if p.pending = 0 ∧ p.isSealed then hs.fire parent p p.aggregate else (hs, [])

/-- Does one duty. The subscriber that is returned is to be called before the duties that are
returned, and those before all others. -/
def perform (hs : Hubs κ) : Duty → Hubs κ × Option (κ × Int) × List Duty
  | .notify hub status => let (hs, ds) := hs.notify hub status; (hs, none, ds)
  | .sealOff hub => let (hs, ds) := hs.sealOff hub; (hs, none, ds)
  | .deliver _ _ [] => (hs, none, [])
  | .deliver hub status (key :: keys) =>
    match hs.get? hub with
    | none => (hs, none, [])
    | some h =>
      -- a subscriber that was removed in the meantime is not called
      match h.subscribers.lookup key with
      | none => (hs, none, [.deliver hub status keys])
      | some callback =>
        (hs.update hub (·.without key), some (callback, status), [.deliver hub status keys])
  | .report parent order status contributes =>
    let (hs, ds) := hs.report parent order status contributes
    (hs, none, ds)
  | .settle hub => (hs.settle hub, none, [])

end Hubs

end JobShell
