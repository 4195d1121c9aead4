import GgsqlDuckdb.Server.Registry

/-!
# The served page

`rust/assets/app.html` as an event loop.  A step runs one handler up to its next `await`, so
whatever can happen between two steps is a step of its own.  The calls of `renderPlot` that
passed its early exit are kept in the order in which they started, finished ones included;
the requests for `/api/latest` that `renderForCurrentLocation` sent are kept likewise, and
the poll loop has a place of its own.

`ggsqlRenderHep` awaits `loadHep`, whose promise is kept from the first call on.  Any event can
come while it is pending.  Behind it nothing but microtasks is awaited, so once it has settled the
calls that wait for it run to their ends before the next event, and so does each later call.

A response is read off the server when it is answered and reaches the page at any later
moment.  What the container `#vis` holds is the plot of the view that drew there last, and
views are numbered in the order in which `PlotView.create` made them.  The calls of `free`
and the plots for which the poll loop called `pushState` are logged.
-/

namespace GgsqlDuckdb

/-! ## §1 Location and history -/

/-- The parts of `window.location` the page reads; `hash` has its leading `#`. -/
structure Location where
  pathname : Bytes
  hash : Bytes
  deriving DecidableEq, Repr

/-- A byte of the class `[A-Za-z0-9-]`. -/
def isUrlIdChar (c : UInt8) : Bool := isalnum c || c == 0x2d

/-- The match of `([A-Za-z0-9-]+)\/?$` at the start of `rest`. -/
def urlId (rest : Bytes) : Option Bytes :=
  let id := rest.takeWhile isUrlIdChar
  if id ≠ [] ∧ (rest.dropWhile isUrlIdChar = [] ∨ rest.dropWhile isUrlIdChar = ascii "/") then
    some id
  else none

/-- `uuidFromLocation` -/
def uuidFromLocation (l : Location) : Option Bytes :=
  match (Server.stripPrefix (ascii "#plot/") l.hash).bind urlId with
  | some id => some id
  | none => (Server.stripPrefix (ascii "/plot/") l.pathname).bind urlId

/-- The URL `#plot/<uuid>`, relative to `l`. -/
def Location.withPlot (l : Location) (uuid : Bytes) : Location :=
  { l with hash := ascii "#plot/" ++ uuid }

/-- The URL `/#plot/<uuid>`. -/
def Location.root (uuid : Bytes) : Location where
  pathname := ascii "/"
  hash := ascii "#plot/" ++ uuid

/-- The session history around the current entry, nearest entries first. -/
structure History where
  back : List Location
  here : Location
  forward : List Location
  deriving DecidableEq, Repr

namespace History

def replaceState (h : History) (l : Location) : History := { h with here := l }

def pushState (h : History) (l : Location) : History where
  back := h.here :: h.back
  here := l
  forward := []

/-- Go back by `n` entries. -/
def goBack : ℕ → History → Option History
  | 0, h => some h
  | n + 1, h =>
    match h.back with
    | [] => none
    | l :: rest => goBack n { back := rest, here := l, forward := h.here :: h.forward }

/-- Go forward by `n` entries. -/
def goForward : ℕ → History → Option History
  | 0, h => some h
  | n + 1, h =>
    match h.forward with
    | [] => none
    | l :: rest => goForward n { back := h.here :: h.back, here := l, forward := rest }

end History

/-! ## §2 The state of the page -/

/-- What made `renderForCurrentLocation` run. -/
inductive Origin where
  | load
  | popstate
  deriving DecidableEq, Repr

/-- Who awaits a call of `renderPlot`: `renderForCurrentLocation` for the plot the location
names or for the latest one, or the poll loop. -/
inductive Caller where
  | location (o : Origin)
  | landing (o : Origin)
  | poll
  deriving DecidableEq, Repr

/-- The caller has set `latestKnown` to the plot before its call. -/
def Caller.advances : Caller → Bool
  | .location _ => false
  | _ => true

/-- Where a call of `renderPlot` is suspended.  `failed` records whether the call had hidden
or emptied `#vis`. -/
inductive RenderPc where
  | fetching
  | reading (body : Server.Body)
  | rendering (body : Server.Body)
  | painted (view : ℕ)
  | finished
  | failed (wiped : Bool)
  deriving DecidableEq, Repr

def RenderPc.isDone : RenderPc → Bool
  | .finished => true
  | .failed _ => true
  | _ => false

/-- The call awaits `ggsqlRenderHep`. -/
def RenderPc.awaits : RenderPc → Bool
  | .rendering _ => true
  | .painted _ => true
  | _ => false

structure RenderCall where
  caller : Caller
  uuid : Bytes
  pc : RenderPc
  deriving DecidableEq, Repr

/-- Where a request for `/api/latest` is: the server has still to answer it, or its answer
has still to reach the page. -/
inductive AskPc where
  | requested
  | answered (latest : Option Bytes)
  | done
  deriving DecidableEq, Repr

/-- `renderForCurrentLocation` on a URL without a plot. -/
structure Landing where
  origin : Origin
  pc : AskPc
  deriving DecidableEq, Repr

inductive PollPc where
  | notStarted
  | requested
  | answered (latest : Option Bytes)
  | rendering
  | sleeping
  deriving DecidableEq, Repr

/-- The promise of `loadHep`; it is pending too as long as there is none. -/
inductive ModulePromise where
  | pending
  | fulfilled
  | rejected
  deriving DecidableEq, Repr

structure Page where
  history : History
  currentUuid : Option Bytes
  latestKnown : Option Bytes
  view : Option ℕ
  shown : Option Bytes
  visHidden : Bool
  emptyHidden : Bool
  emptyText : String
  status : String × Bool
  created : ℕ
  freed : List ℕ
  modulePromise : ModulePromise
  calls : List RenderCall
  landings : List Landing
  poll : PollPc
  pushed : List Bytes
  deriving DecidableEq, Repr

/-- The text of a byte string over ASCII. -/
def asText (b : Bytes) : String := String.ofList (b.map fun c => Char.ofNat c.toNat)

/-- `encodeURIComponent`, on the UTF-8 bytes of its argument. -/
def encodeURIComponent (s : Bytes) : Bytes :=
  let hex (n : UInt8) : UInt8 := if n < 10 then 0x30 + n else 0x37 + n
  s.flatMap fun c =>
    if isalnum c || (ascii "-_.!~*'()").contains c then [c] else [0x25, hex (c / 16), hex (c % 16)]

namespace Page

/-- The plot a visible `#vis` shows. -/
def showing (p : Page) : Option Bytes := if p.visHidden then none else p.shown

/-- No call of `renderPlot` is under way. -/
def Quiet (p : Page) : Prop := ∀ c ∈ p.calls, c.pc.isDone = true

instance (p : Page) : Decidable p.Quiet := inferInstanceAs (Decidable (∀ c ∈ p.calls, _))

/-- Some call of `renderPlot` awaits `ggsqlRenderHep`. -/
def awaited (p : Page) : Bool := p.calls.any fun c => c.pc.awaits

/-- Microtasks are left to run: `loadHep` has settled, and a call is behind it. -/
def draining (p : Page) : Bool := decide (p.modulePromise ≠ .pending) && p.awaited

/-! ## §3 The handlers -/

/-- What runs when a call of `renderPlot` comes to its end: the poll loop goes to sleep, and
behind the first `renderForCurrentLocation` it starts. -/
def resumeCaller (p : Page) : Caller → Page
  | .poll => { p with poll := .sleeping }
  | .location .load => { p with poll := .requested }
  | .landing .load => { p with poll := .requested }
  | .location .popstate => p
  | .landing .popstate => p

/-- `renderPlot` up to its first `await`. -/
def renderPlot (p : Page) (caller : Caller) (uuid : Bytes) : Page :=
  if some uuid = p.currentUuid then p.resumeCaller caller
  else { p with calls := p.calls ++ [{ caller := caller, uuid := uuid, pc := .fetching }] }

/-- A legacy URL `/plot/<uuid>` without a hash is rewritten to `/#plot/<uuid>`. -/
def normalise (p : Page) (uuid : Bytes) : Page :=
  if p.history.here.pathname ≠ ascii "/" ∧ p.history.here.hash = [] then
    { p with history := p.history.replaceState (.root uuid) }
  else p

/-- `renderForCurrentLocation` up to its first `await`. -/
def renderForCurrentLocation (p : Page) (o : Origin) : Page :=
  match uuidFromLocation p.history.here with
  | some uuid => (p.normalise uuid).renderPlot (.location o) uuid
  | none => { p with landings := p.landings ++ [{ origin := o, pc := .requested }] }

/-- The page in front of its first `renderForCurrentLocation`. -/
def initial (l : Location) : Page where
  history := { back := [], here := l, forward := [] }
  currentUuid := none
  latestKnown := none
  view := none
  shown := none
  visHidden := true
  emptyHidden := false
  emptyText := "Waiting for a ggsql query…"
  status := ("ggsql · idle", false)
  created := 0
  freed := []
  modulePromise := .pending
  calls := []
  landings := []
  poll := .notStarted
  pushed := []

/-- The page behind its script, for a tab that opens `l`. -/
def load (l : Location) : Page := (initial l).renderForCurrentLocation .load

def setLanding (p : Page) (k : ℕ) (pc : AskPc) : Page :=
  { p with landings := p.landings.modify k fun a => { a with pc := pc } }

def setCall (p : Page) (k : ℕ) (pc : RenderPc) : Page :=
  { p with calls := p.calls.modify k fun c => { c with pc := pc } }

/-- JavaScript's reading of the `uuid` of an answer as a condition. -/
def truthy : Option Bytes → Option Bytes
  | some uuid => if uuid = [] then none else some uuid
  | none => none

/-- Take a plot of the server over, in the place of the current history entry. -/
def adopt (p : Page) (uuid : Bytes) : Page :=
  { p with
    history := p.history.replaceState (p.history.here.withPlot uuid)
    latestKnown := some uuid }

/-- The state of a page without a plot. -/
def idle (p : Page) : Page :=
  { p with
    visHidden := true
    emptyHidden := false
    emptyText := "Waiting for a ggsql query…"
    status := ("ggsql · idle", false) }

/-- `renderForCurrentLocation` behind the answer to its request. -/
def land (p : Page) (o : Origin) (latest : Option Bytes) : Page :=
  match truthy latest with
  | some uuid => (p.adopt uuid).renderPlot (.landing o) uuid
  | none => p.idle.resumeCaller (.landing o)

/-- The bookkeeping of `pollLoop` for a new plot. -/
def commit (p : Page) (uuid : Bytes) : Page :=
  if p.latestKnown = none then
    -- the first plot of the session leaves no entry to go back to
    p.adopt uuid
  else
    { p with
      history := p.history.pushState (p.history.here.withPlot uuid)
      pushed := p.pushed ++ [uuid]
      latestKnown := some uuid }

def setPoll (p : Page) (poll : PollPc) : Page := { p with poll := poll }

/-- An iteration of `pollLoop` behind the answer to its request. -/
def advance (p : Page) (latest : Option Bytes) : Page :=
  match truthy latest with
  | some uuid =>
    if some uuid ≠ p.latestKnown then ((p.commit uuid).setPoll .rendering).renderPlot .poll uuid
    else p.setPoll .sleeping
  | none => p.setPoll .sleeping

/-- `renderPlot` behind a response with a status that is not OK. -/
def refuse (p : Page) (k : ℕ) (caller : Caller) (code : ℕ) : Page :=
  { p.setCall k (.failed true) with
    emptyHidden := false
    visHidden := true
    emptyText := if code = 404 then "Plot not found." else "Error " ++ toString code ++ "."
    status := ("ggsql · not found", true) }.resumeCaller caller

/-- The `catch` clause of a caller of `renderPlot`; the poll loop keeps silent. -/
def rescue (p : Page) (k : ℕ) (caller : Caller) (wiped : Bool) (e : String) : Page :=
  { p.setCall k (.failed wiped) with
    status := if caller = Caller.poll then p.status else ("ggsql · " ++ e, true)
  }.resumeCaller caller

/-- `renderPlot` from the bytes of the document to the call of `ggsqlRenderHep`. -/
def enterRender (p : Page) (k : ℕ) (body : Server.Body) : Page :=
  { p.setCall k (.rendering body) with
    emptyHidden := true
    visHidden := false
    freed := p.freed ++ p.view.toList
    view := none
    shown := none }

/-- `PlotView.create` draws. -/
def paint (p : Page) (k : ℕ) (uuid : Bytes) : Page :=
  { p.setCall k (.painted p.created) with created := p.created + 1, shown := some uuid }

/-- A constructor of `PlotView` throws behind its `observe`: the view that it leaves is observed,
and nobody has it. -/
def abandonView (p : Page) : Page := { p with created := p.created + 1 }

/-- `renderPlot` behind `ggsqlRenderHep`. -/
def settle (p : Page) (k : ℕ) (caller : Caller) (uuid : Bytes) (view : ℕ) : Page :=
  { p.setCall k .finished with
    view := some view
    currentUuid := some uuid
    status := ("ggsql · plot " ++ asText (uuid.take 8), false) }.resumeCaller caller

/-! ## §4 Steps -/

inductive Label where
  | goBack (n : ℕ)
  | goForward (n : ℕ)
  | fragment (hash : Bytes)
  | landingAnswered (k : ℕ)
  | landingDelivered (k : ℕ)
  | landingFails (k : ℕ) (e : String)
  | fetchAnswered (k : ℕ)
  | fetchStatus (k : ℕ) (code : ℕ)
  | fetchThrows (k : ℕ) (e : String)
  | bodyRead (k : ℕ)
  | bodyThrows (k : ℕ) (e : String)
  | loaded
  | loadFails
  | paint (k : ℕ)
  | renderThrows (k : ℕ) (e : String)
  | drawThrows (k : ℕ) (e : String)
  | resume (k : ℕ)
  | pollAnswered
  | pollDelivered
  | pollFails
  | pollWake
  deriving DecidableEq, Repr

/-- What runs in the microtasks behind `loadHep`. -/
def Label.isMicrotask : Label → Bool
  | .paint _ => true
  | .renderThrows _ _ => true
  | .drawThrows _ _ => true
  | .resume _ => true
  | _ => false

/-- `Response.ok` -/
def ok (status : ℕ) : Bool := 200 ≤ status && status < 300

/-- The response to the request that `renderPlot` sends. -/
def plotResponse (st : Server.State) (uuid : Bytes) : Server.Response :=
  st.respond (Server.routeOf (ascii "/api/plot/" ++ encodeURIComponent uuid))

/-- What a label does to the page while the server's state is `st`.  A user goes back or forward
by `n + 1` entries, or edits the fragment of the URL. -/
def perform (st : Server.State) (p : Page) : Label → Option Page
  | .goBack n =>
    (p.history.goBack (n + 1)).map fun h =>
      { p with history := h }.renderForCurrentLocation .popstate
  | .goForward n =>
    (p.history.goForward (n + 1)).map fun h =>
      { p with history := h }.renderForCurrentLocation .popstate
  | .fragment hash =>
    some ({ p with history := p.history.pushState { p.history.here with hash := hash }
      }.renderForCurrentLocation .popstate)
  | .landingAnswered k =>
    match p.landings[k]? with
    | some ⟨_, .requested⟩ => some (p.setLanding k (.answered st.latest))
    | _ => none
  | .landingDelivered k =>
    match p.landings[k]? with
    | some ⟨o, .answered latest⟩ => some ((p.setLanding k .done).land o latest)
    | _ => none
  -- the request or the reading of its answer throws
  | .landingFails k e =>
    match p.landings[k]? with
    | some ⟨o, .requested⟩ | some ⟨o, .answered _⟩ =>
      some ({ p.setLanding k .done with status := ("ggsql · " ++ e, true) }.resumeCaller
        (.landing o))
    | _ => none
  | .fetchAnswered k =>
    match p.calls[k]? with
    | some ⟨caller, uuid, .fetching⟩ =>
      let resp := plotResponse st uuid
      if ok resp.status then some (p.setCall k (.reading resp.body))
      else some (p.refuse k caller resp.status)
    | _ => none
  -- a status the server does not give by itself, such as a proxy's
  | .fetchStatus k code =>
    match p.calls[k]? with
    | some ⟨caller, _, .fetching⟩ =>
      if ok code then none else some (p.refuse k caller code)
    | _ => none
  | .fetchThrows k e =>
    match p.calls[k]? with
    | some ⟨caller, _, .fetching⟩ => some (p.rescue k caller false e)
    | _ => none
  | .bodyRead k =>
    match p.calls[k]? with
    | some ⟨_, _, .reading body⟩ => some (p.enterRender k body)
    | _ => none
  | .bodyThrows k e =>
    match p.calls[k]? with
    | some ⟨caller, _, .reading _⟩ => some (p.rescue k caller false e)
    | _ => none
  -- the first call of `ggsqlRenderHep` has started `loadHep`
  | .loaded =>
    if p.modulePromise = .pending ∧ p.awaited = true then
      some { p with modulePromise := .fulfilled }
    else none
  | .loadFails =>
    if p.modulePromise = .pending ∧ p.awaited = true then
      some { p with modulePromise := .rejected }
    else none
  -- `ggsqlRenderHep`: its view exists before its promise resolves
  | .paint k =>
    match p.calls[k]? with
    | some ⟨_, uuid, .rendering _⟩ =>
      if p.modulePromise = .fulfilled then some (p.paint k uuid) else none
    | _ => none
  -- `loadHep` has failed, or the document is unreadable
  | .renderThrows k e =>
    match p.calls[k]? with
    | some ⟨caller, _, .rendering _⟩ => some (p.rescue k caller true e)
    | _ => none
  | .drawThrows k e =>
    match p.calls[k]? with
    | some ⟨caller, _, .rendering _⟩ =>
      if p.modulePromise = .fulfilled then some (p.abandonView.rescue k caller true e) else none
    | _ => none
  | .resume k =>
    match p.calls[k]? with
    | some ⟨caller, uuid, .painted view⟩ => some (p.settle k caller uuid view)
    | _ => none
  | .pollAnswered =>
    if p.poll = .requested then some (p.setPoll (.answered st.latest)) else none
  | .pollDelivered =>
    match p.poll with
    | .answered latest => some (p.advance latest)
    | _ => none
  -- the `catch` clause of the loop is empty
  | .pollFails =>
    match p.poll with
    | .requested | .answered _ => some (p.setPoll .sleeping)
    | _ => none
  | .pollWake => if p.poll = .sleeping then some (p.setPoll .requested) else none

/-- One step of the page.  No event comes while microtasks are left to run; several calls that
waited for `loadHep` may run theirs in any order here.  What the server does meanwhile can as well
come behind them, since they do not ask it. -/
def step (st : Server.State) (p : Page) (l : Label) : Option Page :=
  if l.isMicrotask = p.draining then p.perform st l else none

theorem perform_of_step {st : Server.State} {p p' : Page} {l : Label} (h : p.step st l = some p') :
    l.isMicrotask = p.draining ∧ p.perform st l = some p' := Option.ite_none_right_eq_some.mp h

theorem step_of_perform {st : Server.State} {p p' : Page} {l : Label}
    (hturn : l.isMicrotask = p.draining) (h : p.perform st l = some p') :
    p.step st l = some p' := Option.ite_none_right_eq_some.mpr ⟨hturn, h⟩

theorem awaited_of_quiet {p : Page} (hquiet : p.Quiet) : p.awaited = false := by
  apply List.any_eq_false.mpr
  intro c hc hawaits
  have hdone := hquiet c hc
  -- a call that has come to its end awaits nothing
  cases hpc : c.pc <;> simp_all [RenderPc.isDone, RenderPc.awaits]

theorem draining_of_quiet {p : Page} (hquiet : p.Quiet) : p.draining = false := by
  rw [draining, awaited_of_quiet hquiet, Bool.and_false]

end Page

end GgsqlDuckdb
