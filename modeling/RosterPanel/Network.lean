import RosterPanel.Link

/-!
# Networks

A browser together with the links that use it. Links are numbered; sockets and timers know the
number of their link. A bigger world that contains a network takes part through `Networked`:
`Networked.socketEvent` and `Networked.tick` let its network run and tell it what happens.
-/

namespace RosterPanel

structure Network where
  browser : Browser
  links : List Link := []

namespace Network

/-- Adds a link and gives its number. -/
def addLink (n : Network) (settings : LinkSettings) : Nat × Network :=
  (n.links.length, { n with links := n.links ++ [{ settings }] })

/-- Lets a link act; nothing happens if there is no such link. -/
def act {α : Type} (n : Network) (i : Nat) (default : α)
    (f : Link → Browser → α × Link × Browser) : α × Network :=
  match n.links[i]? with
  | none => (default, n)
  | some l =>
    let (a, l, browser) := f l n.browser
    (a, { browser, links := n.links.set i l })

def connect (n : Network) (i : Nat) : Except LinkError Unit × Network :=
  n.act i (.error .notInitialized) fun l b => l.connect i b

def send (n : Network) (i : Nat) (text : String) : Except LinkError Unit × Network :=
  n.act i (.error .notInitialized) fun l b =>
    let (result, b) := l.send text b
    (result, l, b)

def close (n : Network) (i : Nat) : Except LinkError Unit × Network :=
  n.act i (.error .notInitialized) fun l b => l.close b

def retry (n : Network) (i : Nat) : Network :=
  (n.act i () fun l b => ((), l.retry i b)).2

/-- The link that opened a socket. -/
def owner? (n : Network) (s : Nat) : Option Nat := n.browser.sockets[s]?.map (·.owner)

def hear (n : Network) (s : Nat) (e : SocketEvent) : Option Signal × Network :=
  match n.owner? s with
  | none => (none, n)
  | some i => n.act i none fun l b => l.hear b e

def afterClose (n : Network) (s : Nat) : Network :=
  match n.owner? s with
  | none => n
  | some i => (n.act i () fun l b => ((), l.afterClose i b)).2

end Network

/-- A world with a network in it. -/
class Networked (ω : Type) where
  network : ω → Network
  setNetwork : Network → ω → ω

namespace Networked

variable {ω : Type} [Networked ω]

instance : Networked Network where
  network n := n
  setNetwork n _ := n

def setBrowser (f : Browser → Browser) (w : ω) : ω :=
  let n := network w
  setNetwork { n with browser := f n.browser } w

/-- Something happens on a socket; `told` is how the world takes what the link tells. -/
def socketEvent (told : Signal → ω → ω) (s : Nat) (e : SocketEvent) (w : ω) : ω :=
  let (signal, n) := (network w).hear s e
  let w := setNetwork n w
  let w := match signal with
    | some signal => told signal w
    | none => w
  if e = .closed then setNetwork ((network w).afterClose s) w else w

/-- Fires a timer; `run` is how the world does what a timer was set for. -/
def fire (run : Task → ω → ω) (t : Timer) (w : ω) : ω := run t.task (setBrowser (·.expire t) w)

/-- Fires the timers that are due by `limit`, at most so many, those included that are set
meanwhile. -/
def fireDue (run : Task → ω → ω) (limit : Nat) : Nat → ω → ω
  | 0, w => w
  | most + 1, w =>
    match (network w).browser.nextDue? limit with
    | none => w
    | some t => fireDue run limit most (fire run t w)

/-- How many timers a time span can fire, if each sets at most one other and none without delay. -/
def mostFired (b : Browser) (ms : Nat) : Nat := (b.timers.length + 1) * (ms + 1)

/-- Lets time pass. -/
def tick (run : Task → ω → ω) (ms : Nat) (w : ω) : ω :=
  let b := (network w).browser
  let limit := b.now + ms
  setBrowser (fun b => { b with now := limit }) (fireDue run limit (mostFired b ms) w)

end Networked

end RosterPanel
