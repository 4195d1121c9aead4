import GgsqlDuckdb.Library.Machine
import GgsqlDuckdb.Text
import Mathlib.Data.List.DropRight
import Mathlib.Logic.Function.Basic

/-!
# The plot server

`rust/src/server.rs`: the state behind its three locks, the routing of a request, and
`register_plot`.  The critical sections of a registration and the state accesses of a request
are single steps of the machine `registry`; any number of both are under way at a time.  No
lock is ever poisoned, and the random ids of the registrations are distinct.

The contents of the embedded assets and of the app shell are kept by name.
-/

namespace GgsqlDuckdb

namespace Server

open Library

/-! ## §1 State -/

def isIdChar (c : UInt8) : Bool := (0x30 ≤ c && c ≤ 0x39) || (0x61 ≤ c && c ≤ 0x66) || c == 0x2d

/-- The text of a random UUID: nonempty, and over `[0-9a-f-]`. -/
structure PlotId where
  text : Bytes
  ne_nil : text ≠ []
  idChar : ∀ c ∈ text, isIdChar c = true
  deriving DecidableEq

/-- `State`; instants are milliseconds. -/
structure State where
  plots : Bytes → Option Bytes
  latest : Option Bytes
  lastPoll : Option ℕ

def State.empty : State where
  plots _ := none
  latest := none
  lastPoll := none

/-- `TAB_ALIVE_WINDOW` -/
def tabAliveWindow : ℕ := 5000

/-- The first critical section of `register_plot`. -/
def State.insertPlot (st : State) (id hep : Bytes) : State :=
  { st with plots := Function.update st.plots id (some hep) }

/-- The second critical section of `register_plot`. -/
def State.setLatest (st : State) (id : Bytes) : State := { st with latest := some id }

/-- `mark_poll` -/
def State.markPoll (st : State) (now : ℕ) : State := { st with lastPoll := some now }

/-! ## §2 Responses -/

inductive Body where
  | hepAssetsJs
  | hepViewerJs
  | appShell
  | bytes (b : Bytes)
  deriving DecidableEq, Repr

structure Response where
  status : ℕ
  contentType : Option Bytes
  cacheControl : Option Bytes
  body : Body
  deriving DecidableEq, Repr

/-- `html_response` -/
def htmlResponse (body : Body) : Response where
  status := 200
  contentType := some (ascii "text/html; charset=utf-8")
  cacheControl := none
  body := body

/-- `json_response` -/
def jsonResponse (body : Bytes) : Response where
  status := 200
  contentType := some (ascii "application/json; charset=utf-8")
  cacheControl := some (ascii "no-store")
  body := .bytes body

/-- `js_response` -/
def jsResponse (body : Body) : Response where
  status := 200
  contentType := some (ascii "application/javascript; charset=utf-8")
  cacheControl := some (ascii "public, max-age=31536000, immutable")
  body := body

/-- `binary_response` -/
def binaryResponse (body : Bytes) : Response where
  status := 200
  contentType := some (ascii "application/octet-stream")
  cacheControl := some (ascii "no-store")
  body := .bytes body

/-- `not_found`; the content type is the one `Response::from_string` gives. -/
def notFound : Response where
  status := 404
  contentType := some (ascii "text/plain; charset=UTF-8")
  cacheControl := none
  body := .bytes (ascii "not found")

/-- The answer to `/api/latest`. -/
def latestBody : Option Bytes → Bytes
  | some uuid => ascii "\x7b\"uuid\":\"" ++ uuid ++ ascii "\"\x7d"
  | none => ascii "\x7b\"uuid\":null\x7d"

/-! ## §3 Routing -/

inductive Route where
  | hepAssets
  | hepViewer
  | latest
  | plot (id : Bytes)
  | shell
  | unknown
  deriving DecidableEq, Repr

def stripPrefix (pre s : Bytes) : Option Bytes :=
  if pre.isPrefixOf s then some (s.drop pre.length) else none

/-- The case of `route` that a URL falls in. -/
def routeOf (url : Bytes) : Route :=
  let path := url.takeWhile (· != 0x3f)
  if path = ascii "/assets/hep-assets.js" then .hepAssets
  else if path = ascii "/assets/hep-viewer.js" then .hepViewer
  else if path = ascii "/api/latest" then .latest
  else
    match stripPrefix (ascii "/api/plot/") path with
    | some rest => .plot (rest.rdropWhile (· == 0x2f))
    | none =>
      if path = ascii "/" ∨ (ascii "/plot/").isPrefixOf path then .shell else .unknown

/-- The response of a case of `route` to the state it reads. -/
def State.respond (st : State) : Route → Response
  | .hepAssets => jsResponse .hepAssetsJs
  | .hepViewer => jsResponse .hepViewerJs
  | .latest => jsonResponse (latestBody st.latest)
  | .plot id =>
    match st.plots id with
    | some bytes => binaryResponse bytes
    | none => notFound
  | .shell => htmlResponse .appShell
  | .unknown => notFound

/-- `route` -/
def route (now : ℕ) (url : Bytes) (st : State) : Response × State :=
  match routeOf url with
  | .latest => ((st.markPoll now).respond .latest, st.markPoll now)
  | r => (st.respond r, st)

/-! ## §4 Registrations and requests under way -/

structure Registered where
  plotUrl : Bytes
  openUrl : Bytes
  shouldOpen : Bool
  deriving DecidableEq, Repr

/-- The last lines of `register_plot`. -/
def registered (baseUrl : Bytes) (now : ℕ) (st : State) (id : PlotId) : Registered where
  plotUrl := baseUrl ++ ascii "/#plot/" ++ id.text
  openUrl := baseUrl ++ ascii "/"
  shouldOpen :=
    match st.lastPoll with
    | none => true
    | some t => tabAliveWindow < now - t

inductive CallPc where
  | started
  | inserted
  | published
  | returned (r : Registered)
  deriving DecidableEq, Repr

/-- A call of `register_plot`. -/
structure Call where
  id : PlotId
  hep : Bytes
  pc : CallPc

inductive RequestPc where
  | arrived
  | polled
  | answered (r : Response)
  deriving DecidableEq, Repr

structure Request where
  url : Bytes
  pc : RequestPc
  deriving DecidableEq, Repr

/-- `ServerHandle` with the clock, the calls and the requests so far, and the ids in the order
in which `latest` was set to them. -/
structure Registry where
  baseUrl : Bytes
  state : State
  announced : List Bytes
  now : ℕ
  calls : List Call
  requests : List Request

inductive RegistryLabel where
  | tick (d : ℕ)
  | begin (id : PlotId) (hep : Bytes)
  | insert (k : ℕ)
  | publish (k : ℕ)
  | finish (k : ℕ)
  | arrive (url : Bytes)
  | serve (r : ℕ)
  | readLatest (r : ℕ)

namespace Registry

def setCall (s : Registry) (k : ℕ) (pc : CallPc) : Registry :=
  { s with calls := s.calls.modify k fun c => { c with pc := pc } }

def setRequest (s : Registry) (r : ℕ) (pc : RequestPc) : Registry :=
  { s with requests := s.requests.modify r fun q => { q with pc := pc } }

def step (s : Registry) : RegistryLabel → Option Registry
  | .tick d => some { s with now := s.now + d }
  | .begin id hep =>
    if s.calls.any fun c => decide (c.id = id) then none
    else some { s with calls := s.calls ++ [{ id := id, hep := hep, pc := .started }] }
  | .insert k =>
    match s.calls[k]? with
    | some ⟨id, hep, .started⟩ =>
      some { s.setCall k .inserted with state := s.state.insertPlot id.text hep }
    | _ => none
  | .publish k =>
    match s.calls[k]? with
    | some ⟨id, _, .inserted⟩ =>
      some { s.setCall k .published with
        state := s.state.setLatest id.text
        announced := s.announced ++ [id.text] }
    | _ => none
  | .finish k =>
    match s.calls[k]? with
    | some ⟨id, _, .published⟩ =>
      some (s.setCall k (.returned (registered s.baseUrl s.now s.state id)))
    | _ => none
  | .arrive url => some { s with requests := s.requests ++ [{ url := url, pc := .arrived }] }
  | .serve r =>
    match s.requests[r]? with
    | some ⟨url, .arrived⟩ =>
      if routeOf url = .latest then
        -- the heartbeat and the read of `latest` are two state accesses
        some { s.setRequest r .polled with state := s.state.markPoll s.now }
      else some (s.setRequest r (.answered (s.state.respond (routeOf url))))
    | _ => none
  | .readLatest r =>
    match s.requests[r]? with
    | some ⟨_, .polled⟩ => some (s.setRequest r (.answered (s.state.respond .latest)))
    | _ => none

end Registry

def registry : Machine Registry RegistryLabel where
  init s := s.state = .empty ∧ s.announced = [] ∧ s.calls = [] ∧ s.requests = []
  step := Registry.step

end Server

end GgsqlDuckdb
