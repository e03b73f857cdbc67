import Owls.Base.Machine
import Owls.Security
import Owls.SimStats

/-!
# The connections of the UI

`UI_WebSocketClientServer`: the table of the connections, the callbacks of the reactor on them,
the thread that removes those which have ended, and the notifications. A step is one body under
`LocalMutex_`, and `Stop`, which does not take it, is two.
-/

open Fields

namespace Owls.WebSockets

open JsonValue SecurityObjects.JsonDocument

variable {V : Type} [SecurityObjects.JsonDocument V]

/-! ## The table -/

structure ClientInfo where
  id : String
  userName : String
  authenticated : Bool := false
  socketRegistered : Bool := false
  filter : List UInt64 := []
  userInfo : UserInfoAndPolicy := {}

/-- A node of the map, which stays where it is when its value is replaced. -/
structure Node where
  node : Nat
  info : ClientInfo

/-- An iterator of the map, by the key and the node that it points to. -/
structure Iterator where
  fd : Int
  node : Nat
deriving DecidableEq

abbrev ClientList := Std.ExtTreeMap Int Node

structure Server where
  running : Bool := false
  /-- `Stop` has cleared the table, and waits for the reactor. -/
  stopping : Bool := false
  clients : ClientList := ∅
  nextNode : Nat := 0
  toBeRemoved : List Iterator := []
  usersConnected : Nat := 0
  processor : Bool := false

def Server.denotes (s : Server) (i : Iterator) : Prop :=
  (s.clients[i.fd]?).map (·.node) = some i.node

instance (s : Server) (i : Iterator) : Decidable (s.denotes i) :=
  inferInstanceAs (Decidable (_ = _))

def Server.assign (s : Server) (fd : Int) (n : Node) (info : ClientInfo) : Server :=
  { s with clients := s.clients.insert fd { n with info } }

/-! ## What is seen from outside -/

inductive Note (V : Type) where
  | connected (fd : Int)
  | accepted (fd : Int)
  | dropList (fd : Int) (list : List V)
  | processed (fd : Int)
  | reply (fd : Int) (text : String)
  | notified (fd : Int) (id : UInt64) (payload : String)

/-- What `receiveFrame` gives: an exception, no bytes, or a frame with some. -/
inductive Frame where
  | throws
  | empty
  | ping
  | pong
  | close
  | text (bytes : String)
  | other

/-- What the code that a callback calls does. `none` and `false` are exceptions. -/
structure Outcome where
  /-- `UserInfo_` after the call, and the result. -/
  isAuthorized : String → UserInfoAndPolicy → UserInfoAndPolicy × Option Bool :=
    fun _ info => (info, some false)
  process : Option (String × Bool) := some ("", false)
  sends : Bool := true
  removes : Bool := true

inductive Exit where
  | returns
  | ends
  | throws
deriving DecidableEq

def Outcome.afterSending (o : Outcome) (e : Exit) : Exit := if o.sends then e else .throws

/-! ## Frames -/

/-- The buffer is read as a C string. -/
def cString (bytes : String) : String := String.ofList (bytes.toList.takeWhile (· ≠ '\x00'))

/-- `Utils::Split`. The characters of the piece before the position come in reverse order. -/
def splitAux (delimiter : Char) : List Char → List Char → List String
  | [], [] => []
  | piece, [] => [String.ofList piece.reverse]
  | piece, c :: cs =>
    if c = delimiter then String.ofList piece.reverse :: splitAux delimiter [] cs
    else splitAux delimiter (c :: piece) cs

def split (text : String) (delimiter : Char) : List String := splitAux delimiter [] text.toList

def invalidToken : String := "\x7b\"error\":\"Invalid token. Closing connection.\"\x7d"

/-- The parser of the texts, and the welcome with the types of the notifications. -/
structure Texts (V : Type) where
  parse : String → Option (JsonObject V)
  welcome : String

variable (t : Texts V)

def dropNotifications (o : JsonObject V) : Option (List V) :=
  match o "drop-notifications" with
  | some (some v) => toArray v
  | _ => none

def droppedBy (text : String) : Option (List V) := (t.parse text).bind dropNotifications

/-- A text before the connection is authenticated. -/
def onToken (fd : Int) (c : ClientInfo) (text : String) (o : Outcome) :
    ClientInfo × List (Note V) × Exit :=
  match split text ':' with
  | [_, token] =>
    match o.isAuthorized token c.userInfo with
    | (userInfo, none) => ({ c with userInfo }, [], .throws)
    | (userInfo, some true) =>
      ({ c with userInfo, authenticated := true, userName := userInfo.userinfo.email },
       [.accepted fd, .reply fd t.welcome], o.afterSending .returns)
    | (userInfo, some false) =>
      ({ c with userInfo }, [.reply fd invalidToken], o.afterSending .ends)
  | _ => (c, [.reply fd invalidToken], o.afterSending .ends)

/-- The filter is cleared before the new one is converted, and sorted when all of it was. -/
def onDropList (c : ClientInfo) (list : List V) : ClientInfo × Exit :=
  match readList toUInt64 list with
  | (filter, true) => ({ c with filter := filter.mergeSort }, .returns)
  | (filter, false) => ({ c with filter }, .throws)

def onProcess (processor : Bool) (fd : Int) (o : Outcome) : List (Note V) × Exit :=
  if processor then
    match o.process with
    | none => ([.processed fd], .throws)
    | some (answer, done) =>
      ([.processed fd, .reply fd (if answer = "" then "\x7b\x7d" else answer)],
       o.afterSending (if done then .ends else .returns))
  else ([.reply fd "\x7b\x7d"], o.afterSending .returns)

def onCommand (processor : Bool) (fd : Int) (c : ClientInfo) (text : String) (o : Outcome) :
    ClientInfo × List (Note V) × Exit :=
  match t.parse text with
  | none => (c, [], .throws)
  | some obj =>
    match dropNotifications obj with
    | some list => ((onDropList c list).1, [], (onDropList c list).2)
    | none => (c, onProcess processor fd o)

def onText (processor : Bool) (fd : Int) (c : ClientInfo) (text : String) (o : Outcome) :
    ClientInfo × List (Note V) × Exit :=
  if c.authenticated then onCommand t processor fd c text o else onToken t fd c text o

def onFrame (processor : Bool) (fd : Int) (c : ClientInfo) (o : Outcome) :
    Frame → ClientInfo × List (Note V) × Exit
  | .throws => (c, [], .throws)
  | .empty | .close => (c, [], .ends)
  | .ping => (c, [.reply fd ""], o.afterSending .returns)
  | .pong | .other => (c, [], .returns)
  | .text bytes =>
    let sent := (droppedBy t (cString bytes)).toList.map (.dropList fd)
    let r := onText t processor fd c (cString bytes) o
    (r.1, sent ++ r.2.1, r.2.2)

/-! ## Callbacks -/

/-- The server, and whether the call returns. It does not when a handler cannot be removed. -/
def endConnection (s : Server) (fd : Int) (n : Node) (o : Outcome) : Server × Bool :=
  if n.info.socketRegistered && !o.removes then
    (s.assign fd n { n.info with socketRegistered := false }, false)
  else
    ({ s.assign fd n { n.info with socketRegistered := false } with
       toBeRemoved := s.toBeRemoved ++ [⟨fd, n.node⟩] }, true)

/-- The handler of every exception ends the connection, also when it was ending already. -/
def leave (s : Server) (fd : Int) (n : Node) (o : Outcome) : Exit → Server
  | .returns => s.assign fd n n.info
  | .ends =>
    match endConnection s fd n o with
    | (s, true) => s
    | (s, false) => (endConnection s fd { n with info.socketRegistered := false } o).1
  | .throws => (endConnection s fd n o).1

def onSocketReadable (s : Server) (fd : Int) (frame : Frame) (o : Outcome) :
    Server × List (Note V) :=
  match s.clients[fd]? with
  | none => (s, [])
  | some n =>
    let r := onFrame t s.processor fd n.info o frame
    (leave s fd { n with info := r.1 } o r.2.2, r.2.1)

def onSocketError (s : Server) (fd : Int) (o : Outcome) : Server :=
  match s.clients[fd]? with
  | none => s
  | some n => (endConnection s fd n o).1

/-- The exception that `OnSocketError` lets through is swallowed here. -/
def onSocketShutdown (s : Server) (fd : Int) (o : Outcome) : Server := onSocketError s fd o

/-! ## The other bodies -/

/-- Nothing is entered where the socket cannot be set up. -/
def newClient (s : Server) (fd : Int) (id userName : String) (added : Bool) :
    Server × List (Note V) :=
  if added then
    let info : ClientInfo := { id, userName, socketRegistered := true }
    let node := ((s.clients[fd]?).map (·.node)).getD s.nextNode
    let clients := s.clients.insert fd { node, info }
    ({ s with clients, nextNode := s.nextNode + 1, usersConnected := clients.size },
     [.connected fd])
  else (s, [])

/-- `none`: the iterator denotes no entry, and what `erase` does with it is not defined. -/
def eraseAll : ClientList → List Iterator → Option ClientList
  | clients, [] => some clients
  | clients, i :: is =>
    if (clients[i.fd]?).map (·.node) = some i.node then eraseAll (clients.erase i.fd) is else none

/-- A pass of the cleaner. It looks at `Running_` before it takes the mutex. -/
def clean (s : Server) : Option Server :=
  (eraseAll s.clients s.toBeRemoved).map fun clients =>
    { s with clients, toBeRemoved := [], usersConnected := clients.size }

/-- `Stop` up to the join of the reactor. -/
def stop (s : Server) : Server :=
  if s.running then { s with clients := ∅, stopping := true } else s

def isFiltered (id : UInt64) (c : ClientInfo) : Bool := c.filter.contains id

def receives (id : UInt64) (c : ClientInfo) : Bool := !isFiltered id c && c.authenticated

theorem receives_iff {id : UInt64} {c : ClientInfo} :
    receives id c = true ↔ id ∉ c.filter ∧ c.authenticated = true := by
  simp [receives, isFiltered]

/-- The first connection with that name decides. -/
def sendToUser (s : Server) (userName : String) (id : UInt64) (payload : String) (wrote : Bool) :
    Bool × List (Note V) :=
  match s.clients.toList.find? fun p => p.2.info.userName == userName with
  | none => (false, [])
  | some (fd, n) =>
    if receives id n.info then (wrote, [.notified fd id payload]) else (false, [])

def sendToAll (s : Server) (id : UInt64) (payload : String) : List (Note V) :=
  (s.clients.toList.filter fun p => receives id p.2.info).map fun p => .notified p.1 id payload

/-! ## The machine -/

structure System (V : Type) where
  server : Server := {}
  log : List (Note V) := []

inductive Event where
  /-- The cleaner sets `Running_`. -/
  | start
  | setProcessor (processor : Bool)
  | newClient (fd : Int) (id userName : String) (added : Bool)
  | readable (fd : Int) (frame : Frame) (o : Outcome)
  | error (fd : Int) (o : Outcome)
  | shutdown (fd : Int) (o : Outcome)
  | clean
  | stop
  /-- The rest of `Stop`. -/
  | stopped
  | sendToUser (userName : String) (id : UInt64) (payload : String) (wrote : Bool)
  | sendToAll (id : UInt64) (payload : String)

def System.after (s : System V) (r : Server × List (Note V)) : System V :=
  ⟨r.1, s.log ++ r.2⟩

def step (s : System V) : Event → Option (System V)
  | .start => some { s with server.running := true }
  | .setProcessor processor => some { s with server.processor := processor }
  | .newClient fd id userName added => some (s.after (newClient s.server fd id userName added))
  | .readable fd frame o => some (s.after (onSocketReadable t s.server fd frame o))
  | .error fd o => some { s with server := onSocketError s.server fd o }
  | .shutdown fd o => some { s with server := onSocketShutdown s.server fd o }
  | .clean => (clean s.server).map fun u => { s with server := u }
  | .stop => some { s with server := stop s.server }
  | .stopped =>
    if s.server.stopping then
      some { s with server.running := false, server.stopping := false }
    else none
  | .sendToUser userName id payload wrote =>
    some (s.after (s.server, (sendToUser s.server userName id payload wrote).2))
  | .sendToAll id payload => some (s.after (s.server, sendToAll s.server id payload))

/-! ## What a callback leaves -/

section Callbacks

variable {s : Server} {fd : Int} {n : Node} {o : Outcome}

def pushes (n : Node) (o : Outcome) : Exit → Bool
  | .returns => false
  | .ends => true
  | .throws => !n.info.socketRegistered || o.removes

def Server.settle (s : Server) (fd : Int) (n : Node) (info : ClientInfo) (pushed : Bool) : Server :=
  { s.assign fd n info with
    toBeRemoved := if pushed then s.toBeRemoved ++ [⟨fd, n.node⟩] else s.toBeRemoved }

def deregistered (n : Node) : ClientInfo := { n.info with socketRegistered := false }

theorem settle_assign (info info' : ClientInfo) (pushed : Bool) :
    (s.settle fd n info false).settle fd n info' pushed = s.settle fd n info' pushed := by
  have hinsert : (s.clients.insert fd { n with info }).insert fd { n with info := info' } =
      s.clients.insert fd { n with info := info' } := by
    apply Std.ExtTreeMap.ext_getElem?
    intro k
    simp only [Std.ExtTreeMap.getElem?_insert]
    split <;> rfl
  simp only [Server.settle, Server.assign, hinsert]
  rfl

theorem endConnection_eq : endConnection s fd n o =
    (s.settle fd n (deregistered n) (pushes n o .throws), pushes n o .throws) := by
  unfold endConnection
  cases hregistered : n.info.socketRegistered <;> cases hremoves : o.removes <;>
    simp [pushes, Server.settle, deregistered, Server.assign, hregistered, hremoves]

theorem leave_eq (e : Exit) : leave s fd n o e =
    s.settle fd n (if e = .returns then n.info else deregistered n) (pushes n o e) := by
  cases e with
  | returns => rfl
  | throws => simp only [leave, endConnection_eq, reduceCtorEq, if_false]
  | ends =>
    rw [leave, endConnection_eq]
    cases hpushes : pushes n o .throws with
    | true => rfl
    | false =>
      have hpushed : pushes { n with info.socketRegistered := false } o .throws = true := rfl
      simp only [endConnection_eq, hpushed]
      exact settle_assign _ _ _

@[simp] theorem getElem?_settle (info : ClientInfo) (pushed : Bool) (k : Int) :
    (s.settle fd n info pushed).clients[k]? =
      if fd = k then some { n with info } else s.clients[k]? := by
  simp only [Server.settle, Server.assign, Std.ExtTreeMap.getElem?_insert, Std.compare_eq_iff_eq]

end Callbacks

end Owls.WebSockets
