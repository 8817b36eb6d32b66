import CalvoProxy.Lib.HttpHeader
import CalvoProxy.Router.Service

/-!
# The headers of the proxy

`setServedModelHeaders` sets the headers of the proxy, then those of the upstream are added. A
stream skips two of the six names, a buffered response none (`route_duplicated`, `ownsHeaders_iff`).
-/

namespace CalvoProxy

open List HttpHeader FieldName

variable {name : FieldName}

namespace Field

def model : FieldName := ⟨"X-Calvoproxy-Model", by decide⟩

def profile : FieldName := ⟨"X-Calvoproxy-Profile", by decide⟩

def attempt : FieldName := ⟨"X-Calvoproxy-Attempt", by decide⟩

/-- `traceHeader`. -/
def route : FieldName := ⟨"X-Calvoproxy-Route", by decide⟩

/-- `traceIDHeader`. -/
def decisionID : FieldName := ⟨"X-Calvoproxy-Decision-Id", by decide⟩

/-- `traceJSONHeader`. -/
def traceJSON : FieldName := ⟨"X-Calvoproxy-Trace-Json", by decide⟩

def contentLength : FieldName := ⟨"Content-Length", by decide⟩

def contentEncoding : FieldName := ⟨"Content-Encoding", by decide⟩

/-- The headers that only the proxy may set. -/
def owned : List FieldName := [route, decisionID, model, profile, attempt, traceJSON]

end Field

/-! ## Setting the headers of the proxy -/

/-- What the client is shown of the trace; `json` is there if it was asked for and could be
encoded. -/
structure ShownTrace where
  header : String
  id : String
  json : Option String

def setRouteTraceHeaders (h : HttpHeader) (trace : Option ShownTrace) : HttpHeader :=
  match trace with
  | none => h
  | some trace =>
    let h := h.set Field.route trace.header
    if trace.id != "" then h.set Field.decisionID trace.id else h

def setRouteTraceHeadersWithFull (h : HttpHeader) (trace : Option ShownTrace) : HttpHeader :=
  let h := setRouteTraceHeaders h trace
  match trace.bind (·.json) with
  | none => h
  | some raw => h.set Field.traceJSON raw

def setServedModelHeaders (h : HttpHeader) (attempt : ModelAttempt) (trace : Option ShownTrace) :
    HttpHeader :=
  let h := h.set Field.model attempt.model
  let h := h.set Field.profile attempt.profile
  let h := if 0 < attempt.attemptIndex then h.set Field.attempt (toString attempt.attemptIndex)
    else h
  setRouteTraceHeadersWithFull h trace

/-! ## Adding the headers of the upstream -/

def copyHeaders (dst : HttpHeader) (src : ReceivedHeader) (order : List FieldName)
    (skipKeys : List String) : HttpHeader :=
  dst.merge src order (skipKeys.map GoString.toLower)

/-- The header of a buffered response. -/
def writeProxyResponse (h : HttpHeader) (src : ReceivedHeader) (order : List FieldName)
    (length : Nat) : HttpHeader :=
  (copyHeaders h src order ["content-length", "content-encoding"]).set Field.contentLength
    (toString length)

def streamProxyResponse (h : HttpHeader) (src : ReceivedHeader) (order : List FieldName) :
    HttpHeader :=
  copyHeaders h src order [Field.route.text, Field.decisionID.text]

inductive ResponsePath
  | buffered (length : Nat)
  | streamed

namespace ResponsePath

variable (path : ResponsePath)

def respond (h : HttpHeader) (src : ReceivedHeader) (order : List FieldName) : HttpHeader :=
  match path with
  | .buffered length => writeProxyResponse h src order length
  | .streamed => streamProxyResponse h src order

def unguarded : List FieldName :=
  match path with
  | .buffered _ => Field.owned
  | .streamed => [Field.model, Field.profile, Field.attempt, Field.traceJSON]

/-- The headers of the upstream that describe a body the proxy has encoded anew. -/
def replaced : List FieldName :=
  match path with
  | .buffered _ => [Field.contentLength, Field.contentEncoding]
  | .streamed => []

end ResponsePath

/-- The client gets the headers of the proxy as it has set them, and the others as the upstream has
sent them. -/
structure OwnsHeaders (path : ResponsePath) (base : HttpHeader) (attempt : ModelAttempt)
    (trace : Option ShownTrace) (src : ReceivedHeader) (order : List FieldName) : Prop where
  owned : ∀ name ∈ Field.owned,
    (path.respond (setServedModelHeaders base attempt trace) src order).values name =
      (setServedModelHeaders base attempt trace).values name
  forwarded : ∀ name, name.canonical ∉ Field.owned.map canonical →
    name.canonical ∉ path.replaced.map canonical → base.values name = [] →
    (path.respond (setServedModelHeaders base attempt trace) src order).values name =
      received src order name

/-! ## What is sent -/

theorem values_setServedModelHeaders (h : HttpHeader) (attempt : ModelAttempt)
    (trace : Option ShownTrace) (hname : name.canonical ∉ Field.owned.map canonical) :
    (setServedModelHeaders h attempt trace).values name = h.values name := by
  simp only [Field.owned, map_cons, map_nil, mem_cons, not_mem_nil, or_false, not_or] at hname
  obtain ⟨hroute, hid, hmodel, hprofile, hattempt, hjson⟩ := hname
  have hfull : ∀ h : HttpHeader, (setRouteTraceHeadersWithFull h trace).values name =
      h.values name := by
    intro h
    unfold setRouteTraceHeadersWithFull setRouteTraceHeaders
    cases trace with
    | none => rfl
    | some t =>
      obtain ⟨header, id, json⟩ := t
      cases json <;> simp only [Option.bind_some] <;> split <;>
        simp only [values_set, hroute, hid, hjson, if_false]
  unfold setServedModelHeaders
  rw [hfull]
  split <;> simp only [values_set, hmodel, hprofile, hattempt, if_false]

theorem values_copyHeaders (h : HttpHeader) (src : ReceivedHeader) (order : List FieldName)
    (skip : List FieldName) (name : FieldName) :
    (copyHeaders h src order (skip.map (·.text))).values name = h.values name ++
      if name.canonical ∈ skip.map canonical then []
      else received src order name := by
  have hskip : GoString.toLower name.text ∈ (skip.map (·.text)).map GoString.toLower ↔
      name.canonical ∈ skip.map canonical := by
    simp only [mem_map, exists_exists_and_eq_and]
    refine exists_congr fun f => and_congr_right fun _ => ?_
    exact eq_comm.trans (canonical_eq_iff.symm.trans eq_comm)
  unfold copyHeaders
  rw [values_merge]
  simp only [hskip]

theorem values_buffered (h : HttpHeader) (src : ReceivedHeader) (order : List FieldName)
    (length : Nat)
    (hname : name.canonical ∉ [Field.contentLength.canonical, Field.contentEncoding.canonical]) :
    (writeProxyResponse h src order length).values name =
      h.values name ++ received src order name := by
  -- the source spells the two names in lower case
  have hkeys : ["content-length", "content-encoding"].map GoString.toLower =
      ([Field.contentLength, Field.contentEncoding].map (·.text)).map GoString.toLower := by
    decide +kernel
  have hspelled : copyHeaders h src order ["content-length", "content-encoding"] =
      copyHeaders h src order ([Field.contentLength, Field.contentEncoding].map (·.text)) := by
    unfold copyHeaders
    rw [hkeys]
  have hlength : name.canonical ≠ Field.contentLength.canonical :=
    fun heq => hname (mem_cons.mpr (.inl heq))
  unfold writeProxyResponse
  rw [values_set, if_neg hlength, hspelled, values_copyHeaders]
  simp only [map_cons, map_nil]
  rw [if_neg hname]

theorem values_streamed (h : HttpHeader) (src : ReceivedHeader) (order : List FieldName)
    (name : FieldName) :
    (streamProxyResponse h src order).values name = h.values name ++
      if name.canonical ∈ [Field.route.canonical, Field.decisionID.canonical] then []
      else received src order name :=
  values_copyHeaders h src order [Field.route, Field.decisionID] name

/-- The headers of the proxy are its own exactly if the upstream sends none of the unguarded
ones. -/
theorem ownsHeaders_iff (path : ResponsePath) (base : HttpHeader) (attempt : ModelAttempt)
    (trace : Option ShownTrace) (src : ReceivedHeader) (order : List FieldName) :
    OwnsHeaders path base attempt trace src order ↔
      ∀ name ∈ path.unguarded, received src order name = [] := by
  cases path with
  | buffered length =>
    have howned : ∀ name ∈ Field.owned,
        name.canonical ∉ [Field.contentLength.canonical, Field.contentEncoding.canonical] := by
      decide +kernel
    constructor
    · intro h name hname
      have hsame := h.owned name hname
      rw [ResponsePath.respond, values_buffered _ _ _ _ (howned name hname)] at hsame
      exact append_right_eq_self.mp hsame
    · intro hempty
      refine ⟨fun name hname => ?_, fun name hname hreplaced hbase => ?_⟩
      · rw [ResponsePath.respond, values_buffered _ _ _ _ (howned name hname), hempty name hname,
          append_nil]
      · rw [ResponsePath.respond, values_buffered _ _ _ _ hreplaced,
          values_setServedModelHeaders _ _ _ hname, hbase, nil_append]
  | streamed =>
    have hunguarded : ∀ name ∈ ResponsePath.streamed.unguarded, name ∈ Field.owned ∧
        name.canonical ∉ [Field.route.canonical, Field.decisionID.canonical] := by
      decide +kernel
    have hguarded : ∀ name ∈ Field.owned, name ∉ ResponsePath.streamed.unguarded →
        name.canonical ∈ [Field.route.canonical, Field.decisionID.canonical] := by
      decide +kernel
    constructor
    · intro h name hname
      obtain ⟨howned, hnot⟩ := hunguarded name hname
      have hsame := h.owned name howned
      rw [ResponsePath.respond, values_streamed, if_neg hnot] at hsame
      exact append_right_eq_self.mp hsame
    · intro hempty
      refine ⟨fun name hname => ?_, fun name hname _ hbase => ?_⟩
      · rw [ResponsePath.respond, values_streamed]
        split
        · exact append_nil _
        · next hnot =>
          rw [hempty name (by_contra fun hout => hnot (hguarded name hname hout)), append_nil]
      · have hnot : name.canonical ∉ [Field.route.canonical, Field.decisionID.canonical] :=
          fun hin => hname (mem_append_left _ hin)
        rw [ResponsePath.respond, values_streamed, if_neg hnot,
          values_setServedModelHeaders _ _ _ hname, hbase, nil_append]

/-- An upstream that spells the route trace in its own way. -/
def injectedRoute : ReceivedHeader :=
  AList.insert ⟨"x-calvoproxy-ROUTE", by decide⟩ ["v1;p=INJECTED"] ∅

/-- The route of the upstream stands behind the one of the proxy. -/
theorem route_duplicated : (ResponsePath.respond (.buffered 2) (setServedModelHeaders ∅ demoAttempt
      (some ⟨"v1;p=simple;cmp=off", "", none⟩)) injectedRoute []).values Field.route =
      ["v1;p=simple;cmp=off", "v1;p=INJECTED"] := by
  decide +kernel

end CalvoProxy
