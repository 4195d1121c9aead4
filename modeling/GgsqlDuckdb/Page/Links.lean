import GgsqlDuckdb.Page.Locations

/-!
# Deep links

The URL that `register_plot` prints, the legacy form `/plot/<uuid>`, and the variants of both
with a slash behind the id.  A browser cuts a URL into what it sends to the server and what the
page reads; the server, the page and the server again then read the id in three places.

## Main results

- `browse_parts`: the cut of a URL given by its parts.
- `deep_link_round_trip`: every such URL leads to the bytes registered under its id.
-/

namespace GgsqlDuckdb

/-! ## §1 The cut of a URL -/

/-- `base_url`: the server listens on 127.0.0.1, at a port the system picks. -/
def Server.baseUrl (port : UInt16) : Bytes :=
  ascii "http://127.0.0.1:" ++ ascii (toString port.toNat)

/-- What a browser makes of a URL: the server it turns to, the path and query it sends there,
and the parts of `window.location`. -/
structure Browsed where
  origin : Bytes
  target : Bytes
  location : Location
  deriving DecidableEq, Repr

/-- A byte that ends the authority of a URL. -/
def isDelimiter (c : UInt8) : Bool := c == 0x2f || c == 0x3f || c == 0x23

/-- The cut of an absolute `http` URL.  The fragment is not sent, and a bare `#` gives an empty
`location.hash`. -/
def browse (url : Bytes) : Option Browsed :=
  (Server.stripPrefix (ascii "http://") url).map fun rest =>
    let resource := rest.dropWhile fun c => !isDelimiter c
    let sent := resource.takeWhile (· != 0x23)
    let fragment := resource.dropWhile (· != 0x23)
    let path := sent.takeWhile (· != 0x3f)
    { origin := ascii "http://" ++ rest.takeWhile fun c => !isDelimiter c
      target := if path = [] then ascii "/" ++ sent else sent
      location :=
        { pathname := if path = [] then ascii "/" else path
          hash := if fragment = ascii "#" then [] else fragment } }

/-- A query with its leading `?`, or none. -/
def IsQuery (query : Bytes) : Prop :=
  query = [] ∨ ∃ q : Bytes, query = ascii "?" ++ q ∧ 0x23 ∉ q

/-- A fragment with its leading `#`, or none. -/
def IsFragment (fragment : Bytes) : Prop := fragment = [] ∨ ∃ f : Bytes, fragment = ascii "#" ++ f

/-- `takeWhile` stops in front of a tail whose first byte fails the test. -/
theorem takeWhile_append_stop {p : UInt8 → Bool} {xs ys : Bytes} (hxs : ∀ c ∈ xs, p c = true)
    (hys : ∀ c ∈ ys.head?, p c = false) : (xs ++ ys).takeWhile p = xs := by
  rw [List.takeWhile_append_of_pos hxs]
  cases ys with
  | nil => simp
  | cons y ys =>
    have hy : p y = false := hys y rfl
    simp [hy]

theorem dropWhile_append_stop {p : UInt8 → Bool} {xs ys : Bytes} (hxs : ∀ c ∈ xs, p c = true)
    (hys : ∀ c ∈ ys.head?, p c = false) : (xs ++ ys).dropWhile p = ys := by
  rw [List.dropWhile_append_of_pos hxs]
  cases ys with
  | nil => simp
  | cons y ys =>
    have hy : p y = false := hys y rfl
    simp [hy]

theorem not_delimiter_of_digit {c : UInt8} (h : isalnum c = true) : isDelimiter c = false := by
  unfold isDelimiter
  by_contra hc
  simp only [Bool.not_eq_false, Bool.or_eq_true, beq_iff_eq] at hc
  rcases hc with (rfl | rfl) | rfl <;> exact absurd h (by decide)

theorem isalnum_of_isDigit {c : Char} (h : c.isDigit = true) : isalnum c.toUInt8 = true := by
  have hrange : 48 ≤ c.toNat ∧ c.toNat ≤ 57 := by
    simpa [Char.isDigit, UInt32.le_iff_toNat_le] using h
  have hbyte : c.toUInt8.toNat = c.toNat := by
    have hmod : c.toUInt8.toNat = c.toNat % 256 := UInt32.toNat_toUInt8 c.val
    omega
  have hlow : (0x30 : UInt8) ≤ c.toUInt8 := by
    rw [UInt8.le_iff_toNat_le, hbyte]
    exact hrange.1
  have hhigh : c.toUInt8 ≤ (0x39 : UInt8) := by
    rw [UInt8.le_iff_toNat_le, hbyte]
    exact hrange.2
  simp [isalnum, hlow, hhigh]

/-- The host and port of `base_url` are one authority. -/
theorem not_delimiter_of_authority {port : UInt16} {c : UInt8}
    (hc : c ∈ ascii "127.0.0.1:" ++ ascii (toString port.toNat)) : isDelimiter c = false := by
  rcases List.mem_append.mp hc with hhost | hport
  · have hplain : (ascii "127.0.0.1:").all (fun c => !isDelimiter c) = true := by decide
    simpa using List.all_eq_true.mp hplain c hhost
  · -- the port is written in decimal digits
    obtain ⟨d, hd, rfl⟩ := List.mem_map.mp hport
    have hdigit : d ∈ Nat.toDigits 10 port.toNat := by simpa [Nat.repr] using hd
    apply not_delimiter_of_digit
    apply isalnum_of_isDigit
    exact Nat.isDigit_of_mem_toDigits (by decide) (by decide) hdigit

theorem IsQuery.no_hash {query : Bytes} (h : IsQuery query) : ∀ c ∈ query, c ≠ 0x23 := by
  intro c hc hhash
  subst hhash
  rcases h with rfl | ⟨q, rfl, hq⟩
  · cases hc
  · rcases List.mem_append.mp hc with hmark | hrest
    · exact absurd hmark (by decide)
    · exact hq hrest

/-- **The cut of a URL given by its parts.** -/
theorem browse_parts {port : UInt16} {p query fragment : Bytes}
    (hp : ∀ c ∈ p, c ≠ 0x3f ∧ c ≠ 0x23) (hquery : IsQuery query)
    (hfragment : IsFragment fragment) :
    browse (Server.baseUrl port ++ (ascii "/" ++ p ++ query ++ fragment)) =
      some ⟨Server.baseUrl port, ascii "/" ++ p ++ query,
        ⟨ascii "/" ++ p, if fragment = ascii "#" then [] else fragment⟩⟩ := by
  let authority := ascii "127.0.0.1:" ++ ascii (toString port.toNat)
  let sent := ascii "/" ++ p ++ query
  have hbase : Server.baseUrl port = ascii "http://" ++ authority := by
    rw [Server.baseUrl, show ascii "http://127.0.0.1:" = ascii "http://" ++ ascii "127.0.0.1:" by
      decide, List.append_assoc]
  have hstrip : Server.stripPrefix (ascii "http://")
      (Server.baseUrl port ++ (sent ++ fragment)) = some (authority ++ (sent ++ fragment)) := by
    rw [hbase, List.append_assoc, Server.stripPrefix_append]
  -- the authority ends at the first slash
  have hauthority : ∀ c ∈ authority, (!isDelimiter c) = true := by
    intro c hc
    simp [not_delimiter_of_authority hc]
  have hslash : ∀ c ∈ (sent ++ fragment).head?, (!isDelimiter c) = false := by
    intro c hc
    obtain rfl : 0x2f = c := Option.some.inj hc
    decide
  -- what is sent ends at the first `#`
  have hsent : ∀ c ∈ sent, (c != 0x23) = true := by
    intro c hc
    rw [bne_iff_ne]
    rcases List.mem_append.mp hc with hpath | hc
    · rcases List.mem_append.mp hpath with hmark | hc
      · rintro rfl
        exact absurd hmark (by decide)
      · exact (hp c hc).2
    · exact hquery.no_hash c hc
  have hhash : ∀ c ∈ fragment.head?, (c != 0x23) = false := by
    intro c hc
    rcases hfragment with rfl | ⟨f, rfl⟩
    · cases hc
    · obtain rfl : 0x23 = c := Option.some.inj hc
      decide
  -- and the path at the first `?`
  have hpath : ∀ c ∈ ascii "/" ++ p, (c != 0x3f) = true := by
    intro c hc
    rw [bne_iff_ne]
    rcases List.mem_append.mp hc with hmark | hc
    · rintro rfl
      exact absurd hmark (by decide)
    · exact (hp c hc).1
  have hquestion : ∀ c ∈ query.head?, (c != 0x3f) = false := by
    intro c hc
    rcases hquery with rfl | ⟨q, rfl, -⟩
    · cases hc
    · obtain rfl : 0x3f = c := Option.some.inj hc
      decide
  show browse (Server.baseUrl port ++ (sent ++ fragment)) = _
  rw [browse, hstrip]
  simp only [Option.map_some, takeWhile_append_stop hauthority hslash,
    dropWhile_append_stop hauthority hslash, takeWhile_append_stop hsent hhash,
    dropWhile_append_stop hsent hhash]
  rw [show sent.takeWhile (· != 0x3f) = ascii "/" ++ p from takeWhile_append_stop hpath hquestion,
    hbase]
  have hne : ascii "/" ++ p ≠ [] := by simp [ascii]
  rw [if_neg hne, if_neg hne]

/-! ## §2 The URLs of a plot -/

/-- A slash behind an id, or none. -/
def IsSlash (slash : Bytes) : Prop := slash = [] ∨ slash = ascii "/"

/-- The URLs that stand for a plot.  The fragment of a legacy URL is one that names no plot. -/
inductive DeepLink (port : UInt16) (id : Server.PlotId) : Bytes → Prop where
  | plotUrl (now : ℕ) (st : Server.State) (slash : Bytes) (hslash : IsSlash slash) :
      DeepLink port id ((Server.registered (Server.baseUrl port) now st id).plotUrl ++ slash)
  | legacy (slash query fragment : Bytes) (hslash : IsSlash slash) (hquery : IsQuery query)
      (hfragment : IsFragment fragment)
      (hhash : (Server.stripPrefix (ascii "#plot/") fragment).bind urlId = none) :
      DeepLink port id (Server.baseUrl port ++ ascii "/plot/" ++ id.text ++ slash ++ query ++
        fragment)

/-- Where the page of a URL sends the request for its plot. -/
def lookedUp (url : Bytes) : Option Server.Route :=
  (browse url).bind fun b => (uuidFromLocation b.location).map fun uuid =>
    Server.routeOf (ascii "/api/plot/" ++ encodeURIComponent uuid)

theorem urlId_slash {uuid slash : Bytes} (h : IsName uuid) (hslash : IsSlash slash) :
    urlId (uuid ++ slash) = some uuid := by
  have hstop : ∀ c ∈ slash.head?, isUrlIdChar c = false := by
    intro c hc
    rcases hslash with rfl | rfl
    · cases hc
    · obtain rfl : 0x2f = c := Option.some.inj hc
      decide
  unfold urlId
  rw [takeWhile_append_stop h.idChar hstop, dropWhile_append_stop h.idChar hstop]
  simp [h.ne_nil, show slash = [] ∨ slash = ascii "/" from hslash]

/-- The page reads the id of a link in the hash. -/
theorem uuidFromLocation_link {uuid slash pathname : Bytes} (h : IsName uuid)
    (hslash : IsSlash slash) :
    uuidFromLocation ⟨pathname, ascii "#plot/" ++ uuid ++ slash⟩ = some uuid := by
  unfold uuidFromLocation
  rw [List.append_assoc, Server.stripPrefix_append, Option.bind_some, urlId_slash h hslash]

/-- It reads the id of a legacy URL in the path. -/
theorem uuidFromLocation_legacy {uuid slash hash : Bytes} (h : IsName uuid)
    (hslash : IsSlash slash)
    (hhash : (Server.stripPrefix (ascii "#plot/") hash).bind urlId = none) :
    uuidFromLocation ⟨ascii "/plot/" ++ uuid ++ slash, hash⟩ = some uuid := by
  unfold uuidFromLocation
  rw [hhash, List.append_assoc, Server.stripPrefix_append, Option.bind_some, urlId_slash h hslash]

/-- The shell answers every path below `/plot/`, with any query. -/
theorem routeOf_legacy {rest query : Bytes} (hrest : ∀ c ∈ rest, c ≠ 0x3f)
    (hquery : IsQuery query) : Server.routeOf (ascii "/plot/" ++ rest ++ query) = .shell := by
  have hpath : (ascii "/plot/" ++ rest ++ query).takeWhile (· != 0x3f) =
      ascii "/plot/" ++ rest := by
    apply takeWhile_append_stop
    · intro c hc
      rw [bne_iff_ne]
      rcases List.mem_append.mp hc with hmark | hc
      · rintro rfl
        exact absurd hmark (by decide)
      · exact hrest c hc
    · intro c hc
      rcases hquery with rfl | ⟨q, rfl, -⟩
      · cases hc
      · obtain rfl : 0x3f = c := Option.some.inj hc
        decide
  -- the second byte tells `/plot/` from `/assets/` and `/api/`
  have hapi : Server.stripPrefix (ascii "/api/plot/") (ascii "/plot/" ++ rest) = none := by
    apply Server.stripPrefix_none 1 (by decide)
    rw [List.getElem?_append_left (by decide)]
    decide
  simp only [Server.routeOf, hpath]
  rw [if_neg (Server.append_ne 1 (by decide) (by decide)),
    if_neg (Server.append_ne 1 (by decide) (by decide)),
    if_neg (Server.append_ne 1 (by decide) (by decide)), hapi]
  simp

/-! ## §3 From a link to its plot -/

/-- What a page at the end of a link finds. -/
structure Reaches (st : Server.State) (id : Server.PlotId) (hep : Bytes) (b : Browsed) : Prop where
  shell : ∀ now : ℕ, (Server.route now b.target st).1 = Server.htmlResponse .appShell
  extracted : uuidFromLocation b.location = some id.text
  /-- Without a hash the URL is rewritten, to one that names the same plot. -/
  rewritten : b.location.hash = [] → ∀ (p : Page) (o : Origin), p.history.here = b.location →
    (p.renderForCurrentLocation o).history.here = .root id.text ∧
      uuidFromLocation (p.renderForCurrentLocation o).history.here = some id.text
  asked : (Page.load b.location).calls = [⟨.location .load, id.text, .fetching⟩]
  answered : ∀ now : ℕ, (Server.route now (ascii "/api/plot/" ++ encodeURIComponent id.text) st).1 =
    Server.binaryResponse hep

/-- The heartbeat of `/api/latest` does not show in its answer. -/
theorem route_response (now : ℕ) (url : Bytes) (st : Server.State) :
    (Server.route now url st).1 = st.respond (Server.routeOf url) := by
  unfold Server.route
  cases Server.routeOf url <;> rfl

/-- The id of a link whose fragment is empty comes from its path, which is not `/`. -/
theorem normalise_of_no_hash {p : Page} {uuid : Bytes} (hhash : p.history.here.hash = [])
    (h : uuidFromLocation p.history.here = some uuid) :
    (p.normalise uuid).history.here = .root uuid := by
  have hpath : p.history.here.pathname ≠ ascii "/" := by
    intro hroot
    have hnone : uuidFromLocation p.history.here = none := by
      have hhere : p.history.here = ⟨ascii "/", []⟩ := by rw [← hroot, ← hhash]
      rw [hhere]
      decide
    rw [hnone] at h
    cases h
  unfold Page.normalise
  rw [if_pos ⟨hpath, hhash⟩]
  rfl

/-- A location that names a registered plot, behind a target that the shell answers. -/
theorem reaches_of_location {st : Server.State} {id : Server.PlotId} {hep : Bytes} {b : Browsed}
    (hid : st.plots id.text = some hep) (htarget : Server.routeOf b.target = .shell)
    (hlocation : uuidFromLocation b.location = some id.text) : Reaches st id hep b where
  shell now := by
    rw [route_response, htarget, Server.State.respond]
  extracted := hlocation
  rewritten hhash p o hp := by
    rw [← hp] at hhash hlocation
    have hroot := normalise_of_no_hash hhash hlocation
    rw [Page.renderForCurrentLocation_history hlocation, hroot]
    exact ⟨rfl, uuidFromLocation_root (isName_of_plotId id)⟩
  asked := by
    obtain ⟨h, -, -, -, hload⟩ := Page.load_linked hlocation
    rw [hload]
    rfl
  answered now := by
    rw [route_response]
    exact plotResponse_ok hid

/-- The bytes of an id and of a slash behind it end no path. -/
theorem path_of_slash {id : Server.PlotId} {slash : Bytes} (hslash : IsSlash slash) :
    ∀ c ∈ id.text ++ slash, c ≠ 0x3f ∧ c ≠ 0x23 := by
  have hchars : ∀ c ∈ id.text ++ slash, Server.isIdChar c = true ∨ c = 0x2f := by
    intro c hc
    rcases List.mem_append.mp hc with hc | hc
    · exact Or.inl (id.idChar c hc)
    · rcases hslash with rfl | rfl
      · cases hc
      · exact Or.inr (List.mem_singleton.mp hc)
  intro c hc
  constructor <;> rintro rfl <;> exact absurd (hchars _ hc) (by decide)

/-- Both kinds of link are cut into a target of the shell and a location of the plot. -/
theorem DeepLink.browsed {port : UInt16} {id : Server.PlotId} {url : Bytes}
    (h : DeepLink port id url) :
    ∃ b : Browsed, browse url = some b ∧ b.origin = Server.baseUrl port ∧
      Server.routeOf b.target = .shell ∧ uuidFromLocation b.location = some id.text := by
  have hname := isName_of_plotId id
  cases h with
  | plotUrl now st slash hslash =>
    let fragment := ascii "#plot/" ++ id.text ++ slash
    have hurl : (Server.registered (Server.baseUrl port) now st id).plotUrl ++ slash =
        Server.baseUrl port ++ (ascii "/" ++ [] ++ [] ++ fragment) := by
      show Server.baseUrl port ++ ascii "/#plot/" ++ id.text ++ slash = _
      rw [show ascii "/#plot/" = ascii "/" ++ ascii "#plot/" by decide]
      simp only [fragment, List.append_assoc, List.append_nil]
    -- the hash is more than a bare `#`
    have hfull : fragment ≠ ascii "#" := by
      rw [show fragment = ascii "#plot/" ++ (id.text ++ slash) from List.append_assoc _ _ _]
      apply Server.append_ne 1 <;> decide
    have hfragment : IsFragment fragment := Or.inr ⟨ascii "plot/" ++ id.text ++ slash, rfl⟩
    have hcut := @browse_parts port [] [] fragment (by simp) (Or.inl rfl) hfragment
    rw [if_neg hfull] at hcut
    refine ⟨⟨Server.baseUrl port, ascii "/", ⟨ascii "/", fragment⟩⟩, ?_, rfl, ?_, ?_⟩
    · rw [hurl]
      exact hcut
    · show Server.routeOf (ascii "/") = .shell
      decide
    · exact uuidFromLocation_link hname hslash
  | legacy slash query fragment hslash hquery hfragment hhash =>
    let path := ascii "/plot/" ++ (id.text ++ slash)
    have hplain : ∀ c ∈ id.text ++ slash, c ≠ 0x3f ∧ c ≠ 0x23 := path_of_slash hslash
    have hsplit : path = ascii "/" ++ (ascii "plot/" ++ (id.text ++ slash)) := by
      simp only [path, show ascii "/plot/" = ascii "/" ++ ascii "plot/" by decide,
        List.append_assoc]
    have hurl : Server.baseUrl port ++ ascii "/plot/" ++ id.text ++ slash ++ query ++ fragment =
        Server.baseUrl port ++ (path ++ query ++ fragment) := by
      simp only [path, List.append_assoc]
    have hpath : ∀ c ∈ ascii "plot/" ++ (id.text ++ slash), c ≠ 0x3f ∧ c ≠ 0x23 := by
      intro c hc
      rcases List.mem_append.mp hc with hmark | hc
      · constructor <;> rintro rfl <;> exact absurd hmark (by decide)
      · exact hplain c hc
    have hcut := @browse_parts port _ _ _ hpath hquery hfragment
    rw [← hsplit] at hcut
    refine ⟨⟨Server.baseUrl port, path ++ query,
      ⟨path, if fragment = ascii "#" then [] else fragment⟩⟩, ?_, rfl, ?_, ?_⟩
    · rw [hurl]
      exact hcut
    · exact routeOf_legacy (fun c hc => (hplain c hc).1) hquery
    · -- with or without a bare `#`, the hash names no plot
      have hnone : (Server.stripPrefix (ascii "#plot/")
          (if fragment = ascii "#" then [] else fragment)).bind urlId = none := by
        split_ifs
        · decide
        · exact hhash
      show uuidFromLocation ⟨ascii "/plot/" ++ (id.text ++ slash), _⟩ = _
      rw [← List.append_assoc]
      exact uuidFromLocation_legacy hname hslash hnone

theorem DeepLink.lookedUp {port : UInt16} {id : Server.PlotId} {url : Bytes}
    (h : DeepLink port id url) : lookedUp url = some (.plot id.text) := by
  obtain ⟨b, hcut, -, -, hlocation⟩ := h.browsed
  unfold GgsqlDuckdb.lookedUp
  rw [hcut, Option.bind_some, hlocation, Option.map_some, encodeURIComponent_plotId,
    Server.routeOf_plot]

/-- **Every link to a registered plot leads to its bytes.**  The server answers it with the
shell, the page reads the id from it, and asks for what is registered under that id; links to
other plots look up other plots. -/
theorem deep_link_round_trip {st : Server.State} {id : Server.PlotId} {hep : Bytes}
    (hid : st.plots id.text = some hep) {port : UInt16} {url : Bytes}
    (hlink : DeepLink port id url) :
    (∃ b : Browsed, browse url = some b ∧ b.origin = Server.baseUrl port ∧
      Reaches st id hep b) ∧
    ∀ (id' : Server.PlotId) (port' : UInt16) (url' : Bytes), DeepLink port' id' url' →
      lookedUp url' = lookedUp url → id' = id := by
  constructor
  · obtain ⟨b, hcut, horigin, htarget, hlocation⟩ := hlink.browsed
    exact ⟨b, hcut, horigin, reaches_of_location hid htarget hlocation⟩
  · intro id' port' url' hlink' heq
    rw [hlink'.lookedUp, hlink.lookedUp] at heq
    exact Server.PlotId.ext_text (Server.Route.plot.inj (Option.some.inj heq))

/-- A legacy URL with a slash and a query. -/
theorem deep_link_round_trip_legacy :
    (∃ b : Browsed,
      browse (Server.baseUrl 8080 ++ ascii "/plot/" ++ Server.somePlot.text ++ ascii "/" ++
        ascii "?v=1" ++ []) = some b ∧ b.origin = Server.baseUrl 8080 ∧
      Reaches (Server.State.empty.insertPlot Server.somePlot.text [1]) Server.somePlot [1] b) ∧
    ∀ (id' : Server.PlotId) (port' : UInt16) (url' : Bytes), DeepLink port' id' url' →
      lookedUp url' = lookedUp (Server.baseUrl 8080 ++ ascii "/plot/" ++ Server.somePlot.text ++
        ascii "/" ++ ascii "?v=1" ++ []) → id' = Server.somePlot :=
  deep_link_round_trip (by simp [Server.State.insertPlot])
    (.legacy (ascii "/") (ascii "?v=1") [] (Or.inr rfl) (Or.inr ⟨ascii "v=1", rfl, by decide⟩)
      (Or.inl rfl) (by decide))

end GgsqlDuckdb
