import GgsqlDuckdb.Server.Registry

/-!
# Consistency of the plot registry

Registrations update `plots` and `latest` one after the other, and a client sees them through
two requests.  The order of the two updates keeps `latest` inside `plots` at every moment, so
an id the server has named stays answerable for ever.

## Main results

- `Effect`: what a step does to the registrations and to what they write.
- `Consistent`: the invariant over half-completed registrations and given answers.
- `registry_consistency`: what clients can rely on, over any interleaving.
-/

namespace GgsqlDuckdb

namespace Server

open Library

/-! ## §1 Requests for a plot and their answers -/

theorem PlotId.ext_text {a b : PlotId} (h : a.text = b.text) : a = b := by
  cases a
  cases b
  cases h
  rfl

theorem stripPrefix_append (pre s : Bytes) : stripPrefix pre (pre ++ s) = some s := by
  simp [stripPrefix]

theorem stripPrefix_none {pre s : Bytes} (i : ℕ) (hi : i < pre.length)
    (hdiffer : pre[i]? ≠ s[i]?) : stripPrefix pre s = none := by
  apply if_neg
  intro hpre
  obtain ⟨rest, rfl⟩ := List.isPrefixOf_iff_prefix.mp hpre
  exact hdiffer (List.getElem?_append_left hi).symm

/-- One differing byte tells a URL with the prefix `pre` from a literal path. -/
theorem append_ne {pre rest s : Bytes} (i : ℕ) (hi : i < pre.length) (hdiffer : pre[i]? ≠ s[i]?) :
    pre ++ rest ≠ s := by
  intro h
  apply hdiffer
  rw [← h, List.getElem?_append_left hi]

theorem routeOf_plot_of_plain {text : Bytes} (h : ∀ c ∈ text, c ≠ 0x3f ∧ c ≠ 0x2f) :
    routeOf (ascii "/api/plot/" ++ text) = .plot text := by
  -- without a `?` the path is the whole URL
  have hpath : (ascii "/api/plot/" ++ text).takeWhile (· != 0x3f) = ascii "/api/plot/" ++ text := by
    rw [List.takeWhile_eq_self_iff]
    intro c hc
    rcases List.mem_append.mp hc with hc | hc
    · have hplain : (ascii "/api/plot/").all (· != 0x3f) = true := by decide
      exact List.all_eq_true.mp hplain c hc
    · rw [bne_iff_ne]
      exact (h c hc).1
  have hstrip := stripPrefix_append (ascii "/api/plot/") text
  -- nor does it end in a slash
  have htrim : text.rdropWhile (· == 0x2f) = text := by
    rw [List.rdropWhile_eq_self_iff]
    intro hne hlast
    exact (h _ (List.getLast_mem hne)).2 (beq_iff_eq.mp hlast)
  simp only [routeOf, hpath]
  rw [if_neg (append_ne 2 (by decide) (by decide)), if_neg (append_ne 2 (by decide) (by decide)),
    if_neg (append_ne 5 (by decide) (by decide)), hstrip]
  simp only [htrim]

theorem routeOf_plot (id : PlotId) : routeOf (ascii "/api/plot/" ++ id.text) = .plot id.text := by
  apply routeOf_plot_of_plain
  intro c hc
  have hid := id.idChar c hc
  constructor <;> rintro rfl <;> exact absurd hid (by decide)

theorem latestBody_some {latest : Option Bytes} {id : Bytes}
    (h : latestBody latest = latestBody (some id)) : latest = some id := by
  cases latest with
  | none =>
    -- `null` against the opening quote of an id
    have hbyte := congrArg (fun b => b[8]?) h
    simp only [latestBody, List.append_assoc] at hbyte
    rw [List.getElem?_append_left (by decide)] at hbyte
    exact absurd hbyte (by decide)
  | some uuid => simpa [latestBody] using h

/-- A response names `id` as the latest plot. -/
def Response.Names (resp : Response) (id : Bytes) : Prop :=
  resp = jsonResponse (latestBody (some id))

theorem names_of_respond {st : State} {r : Route} {id : Bytes} (h : (st.respond r).Names id) :
    st.latest = some id := by
  have htype : ∀ resp : Response, resp.Names id →
      resp.contentType = some (ascii "application/json; charset=utf-8") := by
    intro resp hresp
    exact congrArg Response.contentType hresp
  -- only `/api/latest` answers with JSON
  cases r with
  | latest =>
    have hbody : latestBody st.latest = latestBody (some id) := by
      simpa [Response.Names, State.respond, jsonResponse] using h
    exact latestBody_some hbody
  | plot id' =>
    have := htype _ h
    unfold State.respond at this
    cases hplot : st.plots id' with
    | none => simp only [hplot] at this; exact absurd this (by decide)
    | some bytes => simp only [hplot, binaryResponse] at this; exact absurd this (by decide)
  | hepAssets => exact absurd (htype _ h) (by simp only [State.respond, jsResponse]; decide)
  | hepViewer => exact absurd (htype _ h) (by simp only [State.respond, jsResponse]; decide)
  | shell => exact absurd (htype _ h) (by simp only [State.respond, htmlResponse]; decide)
  | unknown => exact absurd (htype _ h) (by simp only [State.respond, notFound]; decide)

/-! ## §2 What a step does to the registrations -/

def CallPc.rank : CallPc → ℕ
  | .started => 0
  | .inserted => 1
  | .published => 2
  | .returned _ => 3

namespace Registry

/-- The step of a registration, or none. -/
inductive Effect (s s' : Registry) : Prop
  | other (hcalls : s'.calls = s.calls) (hplots : s'.state.plots = s.state.plots)
      (hlatest : s'.state.latest = s.state.latest) (hannounced : s'.announced = s.announced)
  | begin (id : PlotId) (hep : Bytes) (hfresh : ∀ c ∈ s.calls, c.id ≠ id)
      (hcalls : s'.calls = s.calls ++ [{ id := id, hep := hep, pc := .started }])
      (hstate : s'.state = s.state) (hannounced : s'.announced = s.announced)
  | insert (k : ℕ) (id : PlotId) (hep : Bytes) (hk : s.calls[k]? = some ⟨id, hep, .started⟩)
      (hcalls : s'.calls = (s.setCall k .inserted).calls)
      (hstate : s'.state = s.state.insertPlot id.text hep) (hannounced : s'.announced = s.announced)
  | publish (k : ℕ) (id : PlotId) (hep : Bytes) (hk : s.calls[k]? = some ⟨id, hep, .inserted⟩)
      (hcalls : s'.calls = (s.setCall k .published).calls)
      (hstate : s'.state = s.state.setLatest id.text)
      (hannounced : s'.announced = s.announced ++ [id.text])
  | finish (k : ℕ) (id : PlotId) (hep : Bytes) (r : Registered)
      (hk : s.calls[k]? = some ⟨id, hep, .published⟩)
      (hcalls : s'.calls = (s.setCall k (.returned r)).calls) (hstate : s'.state = s.state)
      (hannounced : s'.announced = s.announced)

theorem effect_of_step {s s' : Registry} {l : RegistryLabel} (h : registry.step s l = some s') :
    Effect s s' := by
  have h : s.step l = some s' := h
  cases l with
  | tick d =>
    cases h
    exact .other rfl rfl rfl rfl
  | begin id hep =>
    obtain ⟨hfresh, hs'⟩ := Option.ite_none_left_eq_some.mp h
    cases hs'
    exact .begin id hep (by simpa using hfresh) rfl rfl rfl
  | insert k =>
    simp only [step] at h
    split at h
    · rename_i id hep hk
      cases h
      exact .insert k id hep hk rfl rfl rfl
    · cases h
  | publish k =>
    simp only [step] at h
    split at h
    · rename_i id hep hk
      cases h
      exact .publish k id hep hk rfl rfl rfl
    · cases h
  | finish k =>
    simp only [step] at h
    split at h
    · rename_i id hep hk
      cases h
      exact .finish k id hep _ hk rfl rfl rfl
    · cases h
  -- requests leave the registrations alone
  | arrive url =>
    cases h
    exact .other rfl rfl rfl rfl
  | serve r =>
    simp only [step] at h
    split at h
    · split_ifs at h <;> cases h <;> exact .other rfl rfl rfl rfl
    · cases h
  | readLatest r =>
    simp only [step] at h
    split at h
    · cases h
      exact .other rfl rfl rfl rfl
    · cases h

theorem getElem?_setCall (s : Registry) (j k : ℕ) (pc : CallPc) :
    (s.setCall k pc).calls[j]? =
      s.calls[j]?.map fun c => if k = j then { c with pc := pc } else c := by
  simp [setCall, List.getElem?_modify]

/-- A registration keeps its id and its document, and only advances. -/
theorem Effect.advance {s s' : Registry} (h : Effect s s') {k : ℕ} {c : Call}
    (hk : s.calls[k]? = some c) :
    ∃ pc, s'.calls[k]? = some { c with pc := pc } ∧ c.pc.rank ≤ pc.rank := by
  -- the three steps of a registration set its own entry, to a later stage
  have hset : ∀ (j : ℕ) (id : PlotId) (hep : Bytes) (pc₀ pc : CallPc),
      s.calls[j]? = some ⟨id, hep, pc₀⟩ → pc₀.rank ≤ pc.rank →
      s'.calls = (s.setCall j pc).calls →
      ∃ pc, s'.calls[k]? = some { c with pc := pc } ∧ c.pc.rank ≤ pc.rank := by
    intro j id hep pc₀ pc hj hrank hcalls
    rw [hcalls, getElem?_setCall, hk]
    by_cases hjk : j = k
    · subst hjk
      obtain rfl : ⟨id, hep, pc₀⟩ = c := Option.some.inj (hj.symm.trans hk)
      exact ⟨pc, by simp, hrank⟩
    · exact ⟨c.pc, by simp [hjk], le_rfl⟩
  cases h with
  | other hcalls => exact ⟨c.pc, hcalls ▸ hk, le_rfl⟩
  | begin id hep hfresh hcalls =>
    have hlt := (List.getElem?_eq_some_iff.mp hk).1
    exact ⟨c.pc, by rw [hcalls, List.getElem?_append_left hlt, hk], le_rfl⟩
  | insert j id hep hj hcalls => exact hset j id hep _ _ hj (by decide) hcalls
  | publish j id hep hj hcalls => exact hset j id hep _ _ hj (by decide) hcalls
  | finish j id hep r hj hcalls =>
    exact hset j id hep _ (.returned r) hj (by simp [CallPc.rank]) hcalls

/-- A registration of the next state was there before, or has just begun. -/
theorem Effect.origin {s s' : Registry} (h : Effect s s') {k : ℕ} {c : Call}
    (hk : s'.calls[k]? = some c) :
    (∃ pc, s.calls[k]? = some { c with pc := pc }) ∨
      (k = s.calls.length ∧ c.pc = .started ∧ ∀ d ∈ s.calls, d.id ≠ c.id) := by
  -- an entry that was set stands where it stood, with its id
  have hset : ∀ (j : ℕ) (pc : CallPc), s'.calls = (s.setCall j pc).calls →
      ∃ pc, s.calls[k]? = some { c with pc := pc } := by
    intro j pc hcalls
    rw [hcalls, getElem?_setCall] at hk
    obtain ⟨d, hd, rfl⟩ := Option.map_eq_some_iff.mp hk
    refine ⟨d.pc, ?_⟩
    rw [hd]
    split <;> rfl
  cases h with
  | other hcalls => exact Or.inl ⟨c.pc, hcalls ▸ hk⟩
  | begin id hep hfresh hcalls =>
    rw [hcalls, List.getElem?_append] at hk
    split_ifs at hk with hlt
    · exact Or.inl ⟨c.pc, hk⟩
    · right
      obtain ⟨hzero, rfl⟩ : k - s.calls.length = 0 ∧ _ = c := by
        simpa [List.getElem?_singleton] using hk
      exact ⟨by omega, rfl, hfresh⟩
  | insert j id hep hj hcalls => exact Or.inl (hset j _ hcalls)
  | publish j id hep hj hcalls => exact Or.inl (hset j _ hcalls)
  | finish j id hep r hj hcalls => exact Or.inl (hset j _ hcalls)

/-! ## §3 The invariant -/

/-- What the critical sections written so far leave behind. -/
structure Consistent (s : Registry) : Prop where
  distinct : ∀ (j k : ℕ) (c d : Call), s.calls[j]? = some c → s.calls[k]? = some d →
    c.id = d.id → j = k
  stored : ∀ (k : ℕ) (c : Call), s.calls[k]? = some c → 1 ≤ c.pc.rank →
    s.state.plots c.id.text = some c.hep
  latest : s.state.latest = s.announced.getLast?
  nodup : s.announced.Nodup
  published : ∀ id ∈ s.announced,
    ∃ (k : ℕ) (c : Call), s.calls[k]? = some c ∧ c.id.text = id ∧ 2 ≤ c.pc.rank

theorem Consistent.published_of_latest {s : Registry} (hs : Consistent s) {id : Bytes}
    (h : s.state.latest = some id) :
    ∃ (k : ℕ) (c : Call), s.calls[k]? = some c ∧ c.id.text = id ∧ 2 ≤ c.pc.rank :=
  hs.published id (List.mem_of_getLast? (hs.latest ▸ h))

theorem Consistent.distinct_step {s s' : Registry} (hs : Consistent s) (h : Effect s s') :
    ∀ (j k : ℕ) (c d : Call), s'.calls[j]? = some c → s'.calls[k]? = some d →
      c.id = d.id → j = k := by
  intro j k c d hj hk hid
  rcases h.origin hj with ⟨pc, hj'⟩ | ⟨hj', -, hfresh⟩ <;>
    rcases h.origin hk with ⟨pc', hk'⟩ | ⟨hk', -, hfresh'⟩
  -- two old registrations, an old and a new one, or the new one twice
  · exact hs.distinct j k _ _ hj' hk' hid
  · exact absurd hid (hfresh' { c with pc := pc } (List.mem_of_getElem? hj'))
  · exact absurd hid.symm (hfresh { d with pc := pc' } (List.mem_of_getElem? hk'))
  · exact hj'.trans hk'.symm

/-- A document stays where its registration put it: nobody else writes under its id. -/
theorem Consistent.stored_step {s s' : Registry} (hs : Consistent s) (h : Effect s s') :
    ∀ (k : ℕ) (c : Call), s'.calls[k]? = some c → 1 ≤ c.pc.rank →
      s'.state.plots c.id.text = some c.hep := by
  have hdistinct := hs.distinct_step h
  -- stages behind the insertion leave `plots` alone
  have hset : ∀ (j : ℕ) (id : PlotId) (hep : Bytes) (pc₀ pc : CallPc) (k : ℕ) (c : Call),
      s.calls[j]? = some ⟨id, hep, pc₀⟩ → 1 ≤ pc₀.rank →
      s'.calls = (s.setCall j pc).calls → s'.calls[k]? = some c → 1 ≤ c.pc.rank →
      s.state.plots c.id.text = some c.hep := by
    intro j id hep pc₀ pc k c hj hrank hcalls hk hc
    rw [hcalls, getElem?_setCall] at hk
    obtain ⟨d, hd, rfl⟩ := Option.map_eq_some_iff.mp hk
    by_cases hjk : j = k
    · subst hjk
      obtain rfl : ⟨id, hep, pc₀⟩ = d := Option.some.inj (hj.symm.trans hd)
      simpa using hs.stored _ _ hd hrank
    · simp only [hjk, if_false] at hc ⊢
      exact hs.stored _ _ hd hc
  intro k c hk hc
  cases h with
  | other hcalls hplots =>
    rw [hplots]
    exact hs.stored k c (hcalls ▸ hk) hc
  | begin id hep hfresh hcalls hstate =>
    -- a new registration has stored nothing yet
    rw [hcalls, List.getElem?_append] at hk
    rw [hstate]
    split_ifs at hk with hlt
    · exact hs.stored k c hk hc
    · obtain ⟨-, rfl⟩ : k - s.calls.length = 0 ∧ _ = c := by
        simpa [List.getElem?_singleton] using hk
      simp [CallPc.rank] at hc
  | insert j id hep hj hcalls hstate =>
    -- the insertion stores its own document, under an id of its own
    have hj' : s'.calls[j]? = some ⟨id, hep, .inserted⟩ := by
      rw [hcalls, getElem?_setCall, hj]
      simp
    rw [hstate, State.insertPlot]
    by_cases hid : c.id = id
    · obtain rfl : k = j := hdistinct k j _ _ hk hj' hid
      obtain rfl : ⟨id, hep, .inserted⟩ = c := Option.some.inj (hj'.symm.trans hk)
      simp
    · have htext : c.id.text ≠ id.text := fun h => hid (PlotId.ext_text h)
      simp only [Function.update_of_ne htext]
      rw [hcalls, getElem?_setCall] at hk
      obtain ⟨d, hd, rfl⟩ := Option.map_eq_some_iff.mp hk
      by_cases hjk : j = k
      · subst hjk
        obtain rfl : ⟨id, hep, .started⟩ = d := Option.some.inj (hj.symm.trans hd)
        simp at hid
      · simp only [hjk, if_false] at hc ⊢
        exact hs.stored _ _ hd hc
  | publish j id hep hj hcalls hstate =>
    rw [hstate]
    exact hset j id hep _ _ k c hj (by decide) hcalls hk hc
  | finish j id hep r hj hcalls hstate =>
    rw [hstate]
    exact hset j id hep _ _ k c hj (by decide) hcalls hk hc

/-- A registration about to announce its id is the first to do so. -/
theorem Consistent.fresh_of_inserted {s : Registry} (hs : Consistent s) {k : ℕ} {id : PlotId}
    {hep : Bytes} (hk : s.calls[k]? = some ⟨id, hep, .inserted⟩) : id.text ∉ s.announced := by
  intro hmem
  -- an announced id belongs to a published registration, and ids are distinct
  obtain ⟨j, c, hj, hid, hrank⟩ := hs.published _ hmem
  obtain rfl : j = k := hs.distinct j k _ _ hj hk (PlotId.ext_text hid)
  rw [hk, Option.some.injEq] at hj
  subst hj
  simp [CallPc.rank] at hrank

theorem Consistent.step {s s' : Registry} (hs : Consistent s) (h : Effect s s') :
    Consistent s' := by
  -- published registrations stay published
  have hkeep : ∀ id ∈ s.announced,
      ∃ (k : ℕ) (c : Call), s'.calls[k]? = some c ∧ c.id.text = id ∧ 2 ≤ c.pc.rank := by
    intro id hid
    obtain ⟨k, c, hk, hc, hrank⟩ := hs.published id hid
    obtain ⟨pc, hk', hpc⟩ := h.advance hk
    exact ⟨k, _, hk', hc, hrank.trans hpc⟩
  -- what holds of `latest` and `announced` is kept by every step that leaves them
  have hsame : s'.state.latest = s.state.latest → s'.announced = s.announced →
      Consistent s' := by
    intro hlatest hannounced
    refine ⟨hs.distinct_step h, hs.stored_step h, ?_, hannounced ▸ hs.nodup, ?_⟩
    · rw [hlatest, hannounced, hs.latest]
    · rw [hannounced]
      exact hkeep
  cases h with
  | other hcalls hplots hlatest hannounced => exact hsame hlatest hannounced
  | begin id hep hfresh hcalls hstate hannounced => exact hsame (by rw [hstate]) hannounced
  | insert j id hep hj hcalls hstate hannounced =>
    exact hsame (by rw [hstate, State.insertPlot]) hannounced
  | finish j id hep r hj hcalls hstate hannounced => exact hsame (by rw [hstate]) hannounced
  | publish j id hep hj hcalls hstate hannounced =>
    -- `latest` and the end of `announced` change together
    have heffect : Effect s s' := .publish j id hep hj hcalls hstate hannounced
    refine ⟨hs.distinct_step heffect, hs.stored_step heffect, ?_, ?_, ?_⟩
    · simp [hstate, State.setLatest, hannounced]
    · rw [hannounced, List.nodup_append]
      refine ⟨hs.nodup, by simp, ?_⟩
      intro u hu v hv huv
      obtain rfl : v = id.text := by simpa using hv
      exact hs.fresh_of_inserted hj (huv ▸ hu)
    · intro u hu
      rcases List.mem_append.mp (hannounced ▸ hu) with hold | hnew
      · exact hkeep u hold
      · obtain rfl : u = id.text := by simpa using hnew
        refine ⟨j, ⟨id, hep, .published⟩, ?_, rfl, le_rfl⟩
        rw [hcalls, getElem?_setCall, hj]
        simp

/-! ## §4 Requests -/

/-- What a step does to the requests. -/
inductive RequestEffect (s s' : Registry) : Prop
  | same (h : s'.requests = s.requests)
  | arrive (url : Bytes) (h : s'.requests = s.requests ++ [{ url := url, pc := .arrived }])
  | poll (r : ℕ) (url : Bytes) (hr : s.requests[r]? = some ⟨url, .arrived⟩)
      (hroute : routeOf url = .latest) (h : s'.requests = (s.setRequest r .polled).requests)
  | answer (r : ℕ) (url : Bytes) (pc : RequestPc) (hr : s.requests[r]? = some ⟨url, pc⟩)
      (hpc : pc = .arrived ∨ pc = .polled ∧ routeOf url = .latest)
      (h : s'.requests =
        (s.setRequest r (.answered (s.state.respond (routeOf url)))).requests)

/-- Only requests for `/api/latest` are between their two state accesses. -/
def PolledLatest (s : Registry) : Prop :=
  ∀ (r : ℕ) (url : Bytes), s.requests[r]? = some ⟨url, .polled⟩ → routeOf url = .latest

theorem requestEffect_of_step {s s' : Registry} {l : RegistryLabel} (hs : PolledLatest s)
    (h : registry.step s l = some s') : RequestEffect s s' := by
  have h : s.step l = some s' := h
  -- registrations leave the requests alone
  have hcall : ∀ k, l = .insert k ∨ l = .publish k ∨ l = .finish k →
      s'.requests = s.requests := by
    intro k hl
    rcases hl with rfl | rfl | rfl <;> simp only [step] at h <;> split at h <;> cases h <;> rfl
  cases l with
  | tick d =>
    cases h
    exact .same rfl
  | begin id hep =>
    obtain ⟨-, hs'⟩ := Option.ite_none_left_eq_some.mp h
    cases hs'
    exact .same rfl
  | insert k => exact .same (hcall k (by simp))
  | publish k => exact .same (hcall k (by simp))
  | finish k => exact .same (hcall k (by simp))
  | arrive url =>
    cases h
    exact .arrive url rfl
  | serve r =>
    simp only [step] at h
    split at h
    · rename_i url hr
      split_ifs at h with hroute
      · cases h
        exact .poll r url hr hroute rfl
      · cases h
        exact .answer r url .arrived hr (Or.inl rfl) rfl
    · cases h
  | readLatest r =>
    simp only [step] at h
    split at h
    · rename_i url hr
      cases h
      have hroute := hs r url hr
      exact .answer r url .polled hr (Or.inr ⟨rfl, hroute⟩) (by rw [hroute])
    · cases h

theorem getElem?_setRequest (s : Registry) (i r : ℕ) (pc : RequestPc) :
    (s.setRequest r pc).requests[i]? =
      s.requests[i]?.map fun q => if r = i then { q with pc := pc } else q := by
  simp [setRequest, List.getElem?_modify]

/-- A request of the next state was there before, has just arrived, has been announced as
alive, or has just been answered from the state before the step. -/
theorem RequestEffect.origin {s s' : Registry} (h : RequestEffect s s') {i : ℕ} {q : Request}
    (hi : s'.requests[i]? = some q) :
    s.requests[i]? = some q ∨
      (i = s.requests.length ∧ q.pc = .arrived) ∨
      (s.requests[i]? = some ⟨q.url, .arrived⟩ ∧ q.pc = .polled ∧ routeOf q.url = .latest) ∨
      (∃ pc, s.requests[i]? = some ⟨q.url, pc⟩ ∧ (pc = .arrived ∨ pc = .polled) ∧
        q.pc = .answered (s.state.respond (routeOf q.url))) := by
  cases h with
  | same h => exact Or.inl (h ▸ hi)
  | arrive url h =>
    rw [h, List.getElem?_append] at hi
    split_ifs at hi with hlt
    · exact Or.inl hi
    · obtain ⟨hzero, rfl⟩ : i - s.requests.length = 0 ∧ _ = q := by
        simpa [List.getElem?_singleton] using hi
      exact Or.inr (Or.inl ⟨by omega, rfl⟩)
  | poll r url hr hroute h =>
    -- between its two accesses, the request keeps its URL
    rw [h, getElem?_setRequest] at hi
    obtain ⟨p, hp, rfl⟩ := Option.map_eq_some_iff.mp hi
    by_cases hri : r = i
    · subst hri
      obtain rfl : ⟨url, .arrived⟩ = p := Option.some.inj (hr.symm.trans hp)
      exact Or.inr (Or.inr (Or.inl (by simp [hr, hroute])))
    · exact Or.inl (by simpa [hri] using hp)
  | answer r url pc hr hpc h =>
    -- the answer is read off the state before the step
    rw [h, getElem?_setRequest] at hi
    obtain ⟨p, hp, rfl⟩ := Option.map_eq_some_iff.mp hi
    by_cases hri : r = i
    · subst hri
      obtain rfl : ⟨url, pc⟩ = p := Option.some.inj (hr.symm.trans hp)
      refine Or.inr (Or.inr (Or.inr ⟨pc, by simpa using hr, ?_, by simp⟩))
      rcases hpc with hpc | ⟨hpc, -⟩
      · exact Or.inl hpc
      · exact Or.inr hpc
    · exact Or.inl (by simpa [hri] using hp)

/-- An answer was there before, or has just been given from the state before the step. -/
theorem RequestEffect.answered {s s' : Registry} (h : RequestEffect s s') {i : ℕ} {url : Bytes}
    {resp : Response} (hi : s'.requests[i]? = some ⟨url, .answered resp⟩) :
    s.requests[i]? = some ⟨url, .answered resp⟩ ∨ resp = s.state.respond (routeOf url) := by
  rcases h.origin hi with hold | ⟨-, hpc⟩ | ⟨-, hpc, -⟩ | ⟨pc, -, -, hpc⟩
  · exact Or.inl hold
  · cases hpc
  · cases hpc
  · exact Or.inr (RequestPc.answered.inj hpc)

theorem PolledLatest.step {s s' : Registry} (hs : PolledLatest s) (h : RequestEffect s s') :
    PolledLatest s' := by
  intro r url hr
  rcases h.origin hr with hold | ⟨-, hpc⟩ | ⟨-, -, hroute⟩ | ⟨pc, -, -, hpc⟩
  · exact hs r url hold
  · cases hpc
  · exact hroute
  · cases hpc

/-- Every id a client was given has been published. -/
def NamedPublished (s : Registry) : Prop :=
  ∀ (i : ℕ) (url : Bytes) (resp : Response) (id : Bytes),
    s.requests[i]? = some ⟨url, .answered resp⟩ → resp.Names id →
    ∃ (k : ℕ) (c : Call), s.calls[k]? = some c ∧ c.id.text = id ∧ 2 ≤ c.pc.rank

/-- The invariant of the registry: its contents and the answers already handed out. -/
structure Sound (s : Registry) : Prop where
  consistent : Consistent s
  polled : PolledLatest s
  named : NamedPublished s

theorem Sound.step {s s' : Registry} {l : RegistryLabel} (hs : Sound s)
    (h : registry.step s l = some s') : Sound s' := by
  have heffect := effect_of_step h
  have hrequest := requestEffect_of_step hs.polled h
  have hkeep : ∀ id, (∃ (k : ℕ) (c : Call), s.calls[k]? = some c ∧ c.id.text = id ∧
      2 ≤ c.pc.rank) →
      ∃ (k : ℕ) (c : Call), s'.calls[k]? = some c ∧ c.id.text = id ∧ 2 ≤ c.pc.rank := by
    rintro id ⟨k, c, hk, hc, hrank⟩
    obtain ⟨pc, hk', hpc⟩ := heffect.advance hk
    exact ⟨k, _, hk', hc, hrank.trans hpc⟩
  refine ⟨hs.consistent.step heffect, hs.polled.step hrequest, ?_⟩
  intro i url resp id hi hnames
  -- an answer given now names `latest`, which is published
  rcases hrequest.answered hi with hold | rfl
  · exact hkeep id (hs.named i url resp id hold hnames)
  · exact hkeep id (hs.consistent.published_of_latest (names_of_respond hnames))

theorem sound_of_reachable {s : Registry} (h : registry.Reachable s) : Sound s := by
  refine h.invariant Sound ?_ fun _ _ _ hs hstep => hs.step hstep
  rintro s₀ ⟨hstate, hannounced, hcalls, hrequests⟩
  -- nothing is registered and nothing asked at the start
  refine ⟨?_, ?_, ?_⟩
  · constructor <;> simp [hstate, hannounced, hcalls, State.empty]
  · simp [PolledLatest, hrequests]
  · simp [NamedPublished, hrequests]

/-! ## §5 What later requests see -/

/-- `s'` comes later than a state with `n` requests in which the registration `k` was
stored, and the requests for its plot since then have been answered with it. -/
structure Served (k : ℕ) (c : Call) (n : ℕ) (s' : Registry) : Prop where
  sound : Sound s'
  registered : ∃ pc, s'.calls[k]? = some { c with pc := pc } ∧ 1 ≤ pc.rank
  served : ∀ (j : ℕ) (resp : Response), n ≤ j →
    s'.requests[j]? = some ⟨ascii "/api/plot/" ++ c.id.text, .answered resp⟩ →
    resp = binaryResponse c.hep

theorem Served.stored {k : ℕ} {c : Call} {n : ℕ} {s : Registry} (h : Served k c n s) :
    s.state.plots c.id.text = some c.hep := by
  obtain ⟨pc, hk, hrank⟩ := h.registered
  exact h.sound.consistent.stored k { c with pc := pc } hk hrank

theorem Served.step {k : ℕ} {c : Call} {n : ℕ} {s s' : Registry} {l : RegistryLabel}
    (hs : Served k c n s) (h : registry.step s l = some s') : Served k c n s' := by
  refine ⟨hs.sound.step h, ?_, ?_⟩
  · obtain ⟨pc, hk, hrank⟩ := hs.registered
    obtain ⟨pc', hk', hpc'⟩ := (effect_of_step h).advance hk
    exact ⟨pc', hk', hrank.trans hpc'⟩
  · intro j resp hj hresp
    rcases (requestEffect_of_step hs.sound.polled h).answered hresp with hold | rfl
    · exact hs.served j resp hj hold
    -- an answer given now is read off the stored plot
    · simp only [routeOf_plot, State.respond, hs.stored]

/-- The registration `i` has returned, and `latest` names it only while no registration from
`n` on has been published. -/
structure Superseded (i : ℕ) (c : Call) (n : ℕ) (s' : Registry) : Prop where
  sound : Sound s'
  returned : ∃ pc, s'.calls[i]? = some { c with pc := pc } ∧ 3 ≤ pc.rank
  newer : s'.state.latest = some c.id.text →
    ∀ (j : ℕ) (d : Call), n ≤ j → s'.calls[j]? = some d → d.pc.rank < 2

theorem Superseded.step {i : ℕ} {c : Call} {n : ℕ} {s s' : Registry} {l : RegistryLabel}
    (hs : Superseded i c n s) (h : registry.step s l = some s') : Superseded i c n s' := by
  have heffect := effect_of_step h
  obtain ⟨pc, hi, hrank⟩ := hs.returned
  refine ⟨hs.sound.step h, ?_, ?_⟩
  · obtain ⟨pc', hi', hpc'⟩ := heffect.advance hi
    exact ⟨pc', hi', hrank.trans hpc'⟩
  intro hlatest j d hj hd
  cases heffect with
  | other hcalls hplots hsame hannounced =>
    exact hs.newer (hsame ▸ hlatest) j d hj (hcalls ▸ hd)
  | begin id hep hfresh hcalls hstate =>
    -- a registration that begins is not published
    rw [hcalls, List.getElem?_append] at hd
    split_ifs at hd with hlt
    · exact hs.newer (hstate ▸ hlatest) j d hj hd
    · obtain ⟨-, rfl⟩ : j - s.calls.length = 0 ∧ _ = d := by
        simpa [List.getElem?_singleton] using hd
      simp [CallPc.rank]
  | insert k id hep hk hcalls hstate =>
    -- `latest` stays, and the step does not publish
    have hbefore := hs.newer (by simpa [hstate, State.insertPlot] using hlatest) j
    rw [hcalls, getElem?_setCall] at hd
    obtain ⟨e, he, rfl⟩ := Option.map_eq_some_iff.mp hd
    split
    · simp [CallPc.rank]
    · exact hbefore e hj he
  | publish k id hep hk hcalls hstate =>
    -- only the registration `i` itself could name its id again, and it is past that
    have hid : id = c.id := PlotId.ext_text (by simpa [hstate, State.setLatest] using hlatest)
    obtain rfl : k = i := hs.sound.consistent.distinct k i _ _ hk hi hid
    rw [hk, Option.some.injEq] at hi
    obtain rfl : CallPc.inserted = pc := congrArg Call.pc hi
    simp [CallPc.rank] at hrank
  | finish k id hep r hk hcalls hstate =>
    -- a registration that returns was published before
    have hbefore := hs.newer (hstate ▸ hlatest) j
    rw [hcalls, getElem?_setCall] at hd
    obtain ⟨e, he, rfl⟩ := Option.map_eq_some_iff.mp hd
    split
    · rename_i hkj
      subst hkj
      have := hbefore _ hj hk
      simp [CallPc.rank] at this
    · exact hbefore e hj he

/-- `s'` comes later than `s₁`, and no answer since `s₁` names the superseded id. -/
structure Forgotten (i j : ℕ) (c : Call) (n : ℕ) (s₁ s' : Registry) : Prop where
  superseded : Superseded i c n s'
  published : ∃ d : Call, s'.calls[j]? = some d ∧ 2 ≤ d.pc.rank
  answers : ∀ (r : ℕ) (url : Bytes) (resp : Response),
    s'.requests[r]? = some ⟨url, .answered resp⟩ →
    s₁.requests[r]? ≠ some ⟨url, .answered resp⟩ → ¬ resp.Names c.id.text

theorem Forgotten.latest_ne {i j : ℕ} {c : Call} {n : ℕ} {s₁ s : Registry} (hj : n ≤ j)
    (h : Forgotten i j c n s₁ s) : s.state.latest ≠ some c.id.text := by
  intro hlatest
  obtain ⟨d, hd, hrank⟩ := h.published
  exact absurd (h.superseded.newer hlatest j d hj hd) (by omega)

theorem Forgotten.step {i j : ℕ} {c : Call} {n : ℕ} {s₁ s s' : Registry} {l : RegistryLabel}
    (hj : n ≤ j) (hs : Forgotten i j c n s₁ s) (h : registry.step s l = some s') :
    Forgotten i j c n s₁ s' := by
  refine ⟨hs.superseded.step h, ?_, ?_⟩
  · obtain ⟨d, hd, hrank⟩ := hs.published
    obtain ⟨pc, hd', hpc⟩ := (effect_of_step h).advance hd
    exact ⟨_, hd', hrank.trans hpc⟩
  · intro r url resp hr hnew
    rcases (requestEffect_of_step hs.superseded.sound.polled h).answered hr with hold | rfl
    · exact hs.answers r url resp hold hnew
    -- an answer given now would have to read the superseded id
    · exact fun hnames => hs.latest_ne hj (names_of_respond hnames)

/-- A request with no other step between its state accesses is answered as `route` says. -/
theorem run_route {s : Registry} {r : ℕ} {url : Bytes}
    (hr : s.requests[r]? = some ⟨url, .arrived⟩) :
    ∃ tr s', registry.run s tr = some s' ∧ s'.state = (route s.now url s.state).2 ∧
      s'.requests[r]? = some ⟨url, .answered (route s.now url s.state).1⟩ := by
  by_cases hroute : routeOf url = .latest
  · -- the heartbeat, then the read
    have hserve : registry.step s (.serve r) =
        some { s.setRequest r .polled with state := s.state.markPoll s.now } := by
      simp only [registry, step, hr, hroute, if_true]
    have hread : registry.step { s.setRequest r .polled with state := s.state.markPoll s.now }
        (.readLatest r) = some (({ s.setRequest r .polled with
          state := s.state.markPoll s.now }).setRequest r
            (.answered ((s.state.markPoll s.now).respond .latest))) := by
      simp [registry, step, getElem?_setRequest, hr]
    refine ⟨[.serve r, .readLatest r], _, Machine.run_cons_eq_some.mpr ⟨_, hserve,
      Machine.run_single.mpr hread⟩, ?_, ?_⟩
    · simp [route, hroute, setRequest]
    · simp [route, hroute, getElem?_setRequest, hr]
  · have hserve : registry.step s (.serve r) =
        some (s.setRequest r (.answered (s.state.respond (routeOf url)))) := by
      simp only [registry, step, hr, hroute, if_false]
    have hsplit : route s.now url s.state = (s.state.respond (routeOf url), s.state) := by
      unfold route
      split
      · contradiction
      · rfl
    refine ⟨[.serve r], _, Machine.run_single.mpr hserve, ?_, ?_⟩
    · rw [hsplit]
      rfl
    · simp [hsplit, getElem?_setRequest, hr]

/-- No request changes the plots or the latest one. -/
theorem request_frame {s s' : Registry} {l : RegistryLabel} (h : registry.step s l = some s')
    (hl : (∃ url, l = .arrive url) ∨ (∃ r, l = .serve r) ∨ ∃ r, l = .readLatest r) :
    s'.state.plots = s.state.plots ∧ s'.state.latest = s.state.latest ∧ s'.calls = s.calls := by
  have h : s.step l = some s' := h
  rcases hl with ⟨url, rfl⟩ | ⟨r, rfl⟩ | ⟨r, rfl⟩
  · cases h
    exact ⟨rfl, rfl, rfl⟩
  · simp only [step] at h
    split at h
    · split_ifs at h <;> cases h <;> exact ⟨rfl, rfl, rfl⟩
    · cases h
  · simp only [step] at h
    split at h
    · cases h
      exact ⟨rfl, rfl, rfl⟩
    · cases h

end Registry

/-- **The registry is consistent over any interleaving of registrations and requests.**
`latest` is always one of the plots.  An id that an answer named is answered with its own
document by every request that arrives later; a stored plot stays as it is; once a
registration that began behind the return of another is published, no later read of `latest`
names the other; and no request changes plots or `latest`. -/
theorem registry_consistency {s : Registry} (hs : registry.Reachable s) :
    (s.state.latest = none ∨
      ∃ id hep, s.state.latest = some id ∧ s.state.plots id = some hep) ∧
    (∀ (i : ℕ) (url : Bytes) (resp : Response) (id : Bytes),
      s.requests[i]? = some ⟨url, .answered resp⟩ → resp.Names id →
      ∃ (k : ℕ) (c : Call), s.calls[k]? = some c ∧ c.id.text = id ∧
        ∀ tr s', registry.run s tr = some s' → ∀ (j : ℕ) (resp' : Response),
          s.requests.length ≤ j →
          s'.requests[j]? = some ⟨ascii "/api/plot/" ++ id, .answered resp'⟩ →
          resp' = binaryResponse c.hep) ∧
    (∀ (k : ℕ) (c : Call), s.calls[k]? = some c → c.pc ≠ .started →
      ∀ tr s', registry.run s tr = some s' → s'.state.plots c.id.text = some c.hep) ∧
    (∀ (i : ℕ) (c : Call) (r : Registered), s.calls[i]? = some c → c.pc = .returned r →
      ∀ tr₁ s₁, registry.run s tr₁ = some s₁ → ∀ (j : ℕ) (d : Call), s.calls.length ≤ j →
        s₁.calls[j]? = some d → 2 ≤ d.pc.rank →
        ∀ tr₂ s₂, registry.run s₁ tr₂ = some s₂ → s₂.state.latest ≠ some c.id.text ∧
          ∀ (q : ℕ) (url : Bytes) (resp : Response),
            s₂.requests[q]? = some ⟨url, .answered resp⟩ →
            s₁.requests[q]? ≠ some ⟨url, .answered resp⟩ → ¬ resp.Names c.id.text) ∧
    (∀ (l : RegistryLabel) (s' : Registry), registry.step s l = some s' →
      ((∃ url, l = .arrive url) ∨ (∃ r, l = .serve r) ∨ ∃ r, l = .readLatest r) →
      s'.state.plots = s.state.plots ∧ s'.state.latest = s.state.latest) := by
  have hsound := Registry.sound_of_reachable hs
  have hstart : ∀ (k : ℕ) (c : Call), s.calls[k]? = some c → 1 ≤ c.pc.rank →
      Registry.Served k c s.requests.length s := by
    intro k c hk hrank
    refine ⟨hsound, ⟨c.pc, hk, hrank⟩, ?_⟩
    intro j resp hj hresp
    rw [List.getElem?_eq_none hj] at hresp
    cases hresp
  -- every later state serves the plots stored by now
  have hserved : ∀ (k : ℕ) (c : Call), s.calls[k]? = some c → 1 ≤ c.pc.rank →
      ∀ tr s', registry.run s tr = some s' → Registry.Served k c s.requests.length s' :=
    fun k c hk hrank tr s' hrun => Machine.run_invariant _ (fun _ _ _ h hstep => h.step hstep)
      (hstart k c hk hrank) hrun
  refine ⟨?_, ?_, ?_, ?_, ?_⟩
  · cases hlatest : s.state.latest with
    -- `latest` is published, hence stored
    | none => exact Or.inl rfl
    | some id =>
      obtain ⟨k, c, hk, rfl, hrank⟩ := hsound.consistent.published_of_latest hlatest
      exact Or.inr ⟨_, _, rfl, hsound.consistent.stored k c hk (by omega)⟩
  · intro i url resp id hi hnames
    -- a named id is that of a published registration
    obtain ⟨k, c, hk, rfl, hrank⟩ := hsound.named i url resp id hi hnames
    refine ⟨k, c, hk, rfl, ?_⟩
    intro tr s' hrun
    exact (hserved k c hk (by omega) tr s' hrun).served
  · intro k c hk hpc tr s' hrun
    refine (hserved k c hk ?_ tr s' hrun).stored
    cases hcpc : c.pc <;> simp_all [CallPc.rank]
  · intro i c r hi hpc tr₁ s₁ hrun₁ j d hj hd hrank tr₂ s₂ hrun₂
    -- no registration from `s.calls.length` on exists yet
    have hbefore : Registry.Superseded i c s.calls.length s := by
      refine ⟨hsound, ⟨c.pc, hi, by simp [hpc, CallPc.rank]⟩, ?_⟩
      intro _ j d hj hd
      rw [List.getElem?_eq_none hj] at hd
      cases hd
    have hmiddle := Machine.run_invariant _ (fun _ _ _ h hstep => h.step hstep) hbefore hrun₁
    -- from `s₁` on, the newer registration is published
    have hpublished : Registry.Forgotten i j c s.calls.length s₁ s₁ :=
      ⟨hmiddle, ⟨d, hd, hrank⟩, fun _ _ _ hr hne => absurd hr hne⟩
    have hend := Machine.run_invariant (Registry.Forgotten i j c s.calls.length s₁)
      (fun _ _ _ h hstep => h.step hj hstep) hpublished hrun₂
    exact ⟨hend.latest_ne hj, hend.answers⟩
  · intro l s' h hl
    obtain ⟨hplots, hlatest, -⟩ := Registry.request_frame h hl
    exact ⟨hplots, hlatest⟩

/-- A server that has started and received nothing. -/
def idle : Registry where
  baseUrl := ascii "http://127.0.0.1:8080"
  state := .empty
  announced := []
  now := 0
  calls := []
  requests := []

def somePlot : PlotId where
  text := ascii "a1-0f"
  ne_nil := by decide
  idChar := List.all_eq_true.mp (by decide)

def otherPlot : PlotId where
  text := ascii "b2-1e"
  ne_nil := by decide
  idChar := List.all_eq_true.mp (by decide)

def thirdPlot : PlotId where
  text := ascii "c3-2d"
  ne_nil := by decide
  idChar := List.all_eq_true.mp (by decide)

/-- A plot is registered, and a request for `/api/latest` is answered with its id. -/
def naming : List RegistryLabel :=
  [.begin somePlot [7], .insert 0, .publish 0, .arrive (ascii "/api/latest"), .serve 0,
    .readLatest 0]

theorem registry_consistency_named :
    ∃ s s' resp, registry.run idle naming = some s ∧
      registry.run s [.arrive (ascii "/api/plot/" ++ somePlot.text), .serve 1] = some s' ∧
      s'.requests[1]? = some ⟨ascii "/api/plot/" ++ somePlot.text, .answered resp⟩ ∧
      resp = binaryResponse [7] := by
  refine ⟨_, _, _, rfl, rfl, rfl, ?_⟩
  obtain ⟨k, c, hk, -, hserved⟩ :=
    (registry_consistency ⟨idle, naming, ⟨rfl, rfl, rfl, rfl⟩, rfl⟩).2.1 0 (ascii "/api/latest") _
      somePlot.text rfl rfl
  -- the only registration is that of the plot
  obtain ⟨hlt, hc⟩ := List.getElem?_eq_some_iff.mp hk
  obtain rfl : k = 0 := Nat.lt_one_iff.mp hlt
  obtain rfl := hc
  exact hserved [.arrive (ascii "/api/plot/" ++ somePlot.text), .serve 1] _ rfl 1 _ le_rfl rfl

end Server

end GgsqlDuckdb
