import AsmProto.EventCollection
import AsmProto.ServerReply

set_option autoImplicit false

/-! # Adjacent event windows

A client that collects a log piece by piece cuts the 32-bit time line and asks for one window after
the other. Both bounds of a window are inclusive, so the next window starts one second after the last
one stops; each event then lies in exactly one of them, and is listed exactly as often as the log has
it. -/

namespace AsmProto

/-! ## Windows -/

/-- The windows between cut points, from `start` to the last second. -/
def windowsFrom (start : UInt32) : List UInt32 → List GetEventListRequestPayload
  | [] => [{ timeStart := start, timeStop := 0xffffffff }]
  | cut :: cuts => { timeStart := start, timeStop := cut - 1 } :: windowsFrom cut cuts

/-- The second before a cut. -/
theorem le_sub_one_iff {start cut : UInt32} (hlt : start < cut) (time : UInt32) :
    time ≤ cut - 1 ↔ time < cut := by
  rw [UInt32.lt_iff_toNat_lt] at hlt
  have hone : (1 : UInt32) ≤ cut := by
    rw [UInt32.le_iff_toNat_le, UInt32.toNat_one]
    omega
  rw [UInt32.le_iff_toNat_le, UInt32.toNat_sub_of_le _ _ hone, UInt32.lt_iff_toNat_lt,
    UInt32.toNat_one]
  omega

theorem ordered_of_mem_windowsFrom {start : UInt32} {cuts : List UInt32}
    (hcuts : (start :: cuts).Pairwise (· < ·)) {window : GetEventListRequestPayload}
    (h : window ∈ windowsFrom start cuts) : window.timeStart ≤ window.timeStop := by
  induction cuts generalizing start with
  | nil =>
      rw [windowsFrom, List.mem_singleton] at h
      subst h
      exact le_last start
  | cons cut cuts ih =>
      obtain ⟨hstart, hrest⟩ := List.pairwise_cons.1 hcuts
      have hlt : start < cut := hstart cut List.mem_cons_self
      rcases List.mem_cons.1 h with rfl | hmem
      · exact (le_sub_one_iff hlt start).2 hlt
      · exact ih hrest hmem

/-- Cutting a window in two leaves no event out and none in both. -/
theorem eventsIn_cut_perm (events : List EventRecord) {start cut stop : UInt32} (hlt : start < cut)
    (hstop : cut ≤ stop) :
    (eventsIn events start (cut - 1) ++ eventsIn events cut stop).Perm
      (eventsIn events start stop) := by
  have hfirst : eventsIn events start (cut - 1)
      = (eventsIn events start stop).filter fun event => event.timestampEpoch < cut := by
    rw [eventsIn, eventsIn, List.filter_filter]
    refine List.filter_congr fun event _ => ?_
    rw [← Bool.decide_and, decide_eq_decide, le_sub_one_iff hlt]
    refine ⟨fun h => ⟨h.2, h.1, UInt32.le_trans (UInt32.le_of_lt h.2) hstop⟩, fun h => ⟨h.2.1, h.1⟩⟩
  have hsecond : eventsIn events cut stop
      = (eventsIn events start stop).filter fun event => !decide (event.timestampEpoch < cut) := by
    rw [eventsIn, eventsIn, List.filter_filter]
    refine List.filter_congr fun event _ => ?_
    rw [← decide_not, ← Bool.decide_and, decide_eq_decide, UInt32.not_lt]
    refine ⟨fun h => ⟨h.1, UInt32.le_trans (UInt32.le_of_lt hlt) h.1, h.2⟩, fun h => ⟨h.1, h.2.2⟩⟩
  rw [hfirst, hsecond]
  exact List.filter_append_perm _ _

/-- **The windows between cut points partition the events** from `start` on. -/
theorem eventsIn_windowsFrom_perm (events : List EventRecord) {start : UInt32} {cuts : List UInt32}
    (hcuts : (start :: cuts).Pairwise (· < ·)) :
    ((windowsFrom start cuts).flatMap fun window =>
      eventsIn events window.timeStart window.timeStop).Perm (eventsIn events start 0xffffffff) := by
  induction cuts generalizing start with
  | nil => rw [windowsFrom, List.flatMap_singleton]
  | cons cut cuts ih =>
      obtain ⟨hstart, hrest⟩ := List.pairwise_cons.1 hcuts
      rw [windowsFrom, List.flatMap_cons]
      exact ((ih hrest).append_left _).trans
        (eventsIn_cut_perm events (hstart cut List.mem_cons_self) (le_last cut))

/-! ## Asking for windows -/

/-- One `GetEventList` of a client: its window, its request id, and the clock of the service then. -/
structure WindowQuery where
  window : GetEventListRequestPayload
  requestId : RequestId
  now : UInt64 := 0
deriving Repr, DecidableEq

def WindowQuery.request (query : WindowQuery) : StandardRequest :=
  eventListRequest query.window.timeStart query.window.timeStop query.requestId

namespace AsmService

variable {σ : Type} (service : AsmService σ)

/-- A request in its frame, received and answered; the answer out of its frame. -/
def roundTrip (now : UInt64) (request : StandardRequest) : EStateM StdException σ StandardResponse := do
  let message ← EStateM.liftExcept (encodeRequestFrame request)
  let result ← service.receive now message
  let frame ← EStateM.liftExcept (encodeResponseFrame result.response)
  EStateM.liftExcept (decodeResponseFrame frame)

/-- The response code of a query and the ids its payload decodes to. -/
def listWindow (query : WindowQuery) :
    EStateM StdException σ (GeneralResponse × List UInt32) := do
  let response ← service.roundTrip query.now query.request
  let eventIds ← EStateM.liftExcept (GetEventListPayloadCodec.decodeResponse response.payload)
  return (response.responseCode, eventIds)

def listWindows : List WindowQuery → EStateM StdException σ (List (GeneralResponse × List UInt32))
  | [] => return []
  | query :: queries => do
      let answer ← service.listWindow query
      let answers ← listWindows queries
      return answer :: answers

variable {service}

/-- **A regular reply that fits comes back as it is**, and a request that asks the key store for
    nothing leaves it alone. -/
theorem run_roundTrip_of_replies {now : UInt64} {store : σ} {request : StandardRequest}
    {payload : ByteBuffer} {code : GeneralResponse} (hcommand : request.command ≠ .badRequest)
    (hlen : request.payload.length ≤ 8) (hid : request.requestId ≠ 0)
    (hasks : ∀ call, ¬ Asks request call)
    (hreplies : Replies service now store request payload code)
    (hfits : 5 + payload.length ≤ Klv.maxLength) :
    (service.roundTrip now request).run store
      = .ok (regularResponse request payload code) store := by
  obtain ⟨message, hdecode⟩ := exists_requestFrame hcommand hlen
  have hresponse := response_of_replies hdecode hid hreplies
  have hwell : Codec.WellIdentified (regularResponse request payload code) :=
    RegularReply.wellIdentified ⟨request, payload, code, hdecode, hid, hreplies, rfl⟩
  obtain ⟨frame, hframe⟩ := (returns_encodeResponseFrame_iff hwell).2
    (by rw [regularResponse_value_length]; exact hfits)
  have hreturn := decodeResponseFrame_eq_ok_iff.2 ⟨hwell, hframe⟩
  simp only [roundTrip, EStateM.run_bind, decodeRequestFrame_eq_ok_iff.1 hdecode, run_receive_eq,
    hresponse, receiveOn_store_of_not_asks hdecode hasks, hframe, hreturn,
    EStateM.run_liftExcept_ok]

theorem not_asks_eventListRequest (timeStart timeStop : UInt32) (requestId : RequestId)
    (call : StoreCall) : ¬ Asks (eventListRequest timeStart timeStop requestId) call := by
  cases call <;> simp [Asks, eventListRequest]

/-- The round trip of a `GetEventList`, whatever its answer. -/
theorem run_roundTrip_eventListRequest {now : UInt64} {store : σ} {timeStart timeStop : UInt32}
    {requestId : RequestId} {payload : ByteBuffer} {code : GeneralResponse} (hid : requestId ≠ 0)
    (hreplies : Replies service now store (eventListRequest timeStart timeStop requestId) payload code)
    (hfits : 5 + payload.length ≤ Klv.maxLength) :
    (service.roundTrip now (eventListRequest timeStart timeStop requestId)).run store
      = .ok (regularResponse (eventListRequest timeStart timeStop requestId) payload code) store :=
  run_roundTrip_of_replies (by simp [eventListRequest])
    (by simp [eventListRequest, GetEventListPayloadCodec.encodeRequest, appendBeU32_eq]) hid
    (not_asks_eventListRequest timeStart timeStop requestId) hreplies hfits

variable {events : List EventRecord} {store : σ} (hlog : service.eventLogStore = .ofEvents events)

include hlog

/-- A window that is not reversed and fits is answered with the ids of its events. -/
theorem run_listWindow {query : WindowQuery} (hid : query.requestId ≠ 0)
    (hordered : query.window.timeStart ≤ query.window.timeStop)
    (hfits : WindowFits events query.window.timeStart query.window.timeStop) :
    (service.listWindow query).run store = .ok (.successful,
      listEventIds events query.window.timeStart query.window.timeStop) store := by
  have hlen : 5 + (GetEventListPayloadCodec.encodeResponse
      (listEventIds events query.window.timeStart query.window.timeStop)).length ≤ Klv.maxLength := by
    rw [GetEventListPayloadCodec.encodeResponse_length, listEventIds_eq, List.length_map]
    unfold WindowFits at hfits
    omega
  have hround := @run_roundTrip_eventListRequest σ service query.now store _ _ _ _ _ hid
    (replies_eventList hlog hordered query.requestId) hlen
  simp only [listWindow, WindowQuery.request, EStateM.run_bind, hround, regularResponse,
    decodeResponse_listEventIds hfits, EStateM.run_liftExcept_ok]
  rfl

theorem run_listWindows {queries : List WindowQuery}
    (hids : ∀ query ∈ queries, query.requestId ≠ 0)
    (hordered : ∀ query ∈ queries, query.window.timeStart ≤ query.window.timeStop)
    (hfits : ∀ query ∈ queries, WindowFits events query.window.timeStart query.window.timeStop) :
    (service.listWindows queries).run store = .ok (queries.map fun query => (.successful,
      listEventIds events query.window.timeStart query.window.timeStop)) store := by
  induction queries with
  | nil => rfl
  | cons query queries ih =>
      rw [List.forall_mem_cons] at hids hordered hfits
      simp only [listWindows, EStateM.run_bind, run_listWindow hlog hids.1 hordered.1 hfits.1,
        ih hids.2 hordered.2 hfits.2]
      rfl

end AsmService

/-- **Adjacent windows leave no gap and no overlap.** Over every event log, with the time line cut at
    any increasing points, the answers for the windows between the cuts, from second 0 to the last one,
    are all successful and together list the id of every event as often as the log has it, as long as
    each answer fits a frame; a window that starts after it stops is refused. -/
theorem adjacent_windows_partition {σ : Type} (events : List EventRecord) (leKeyStore : LeKeyStore σ)
    (spbStatusProvider : QuerySpbStatusProvider) (store : σ) (cuts : List UInt32)
    (queries : List WindowQuery) (hcuts : ((0 : UInt32) :: cuts).Pairwise (· < ·))
    (hwindows : queries.map WindowQuery.window = windowsFrom 0 cuts)
    (hids : ∀ query ∈ queries, query.requestId ≠ 0)
    (hfits : ∀ query ∈ queries, WindowFits events query.window.timeStart query.window.timeStop) :
    let service : AsmService σ :=
      { eventLogStore := .ofEvents events, leKeyStore := leKeyStore,
        spbStatusProvider := spbStatusProvider }
    (∃ answers, (service.listWindows queries).run store = .ok answers store ∧
      (∀ answer ∈ answers, answer.1 = .successful) ∧
      (answers.flatMap Prod.snd).Perm (events.map EventRecord.eventId)) ∧
    ∀ query : WindowQuery, query.requestId ≠ 0 → query.window.timeStart > query.window.timeStop →
      ∃ response, (service.roundTrip query.now query.request).run store = .ok response store ∧
        response.responseCode = .invalid ∧ response.payload = [] := by
  intro service
  have hlog : service.eventLogStore = .ofEvents events := rfl
  have hordered : ∀ query ∈ queries, query.window.timeStart ≤ query.window.timeStop := by
    intro query hquery
    refine ordered_of_mem_windowsFrom hcuts ?_
    rw [← hwindows]
    exact List.mem_map_of_mem hquery
  refine ⟨⟨_, AsmService.run_listWindows hlog hids hordered hfits, ?_, ?_⟩, ?_⟩
  · intro answer hanswer
    obtain ⟨query, -, rfl⟩ := List.mem_map.1 hanswer
    rfl
  · have hparts : (queries.map fun query => (GeneralResponse.successful,
        listEventIds events query.window.timeStart query.window.timeStop)).flatMap Prod.snd
        = ((windowsFrom 0 cuts).flatMap fun window =>
            eventsIn events window.timeStart window.timeStop).map EventRecord.eventId := by
      rw [← hwindows, List.flatMap_map, List.flatMap_map, List.map_flatMap]
      rfl
    rw [hparts]
    have hperm := (eventsIn_windowsFrom_perm events hcuts).map EventRecord.eventId
    rw [eventsIn_full] at hperm
    exact hperm
  · intro query hid hreversed
    have hreplies : Replies service query.now store query.request [] .invalid :=
      .reversedWindow rfl query.window
        (decodeRequest_eventListRequest query.window.timeStart query.window.timeStop query.requestId)
        hreversed
    exact ⟨_, AsmService.run_roundTrip_eventListRequest hid hreplies (by decide), rfl, rfl⟩

/-- A cut on the second event, which is listed once, by the second window. -/
theorem adjacent_windows_partition_cut_on_event :
    (∃ answers, ((AsmService.ofEvents repeatedIdEvents).listWindows
        [{ window := { timeStart := 0, timeStop := 1776758699 }, requestId := 1 },
         { window := { timeStart := 1776758700, timeStop := 0xffffffff }, requestId := 2 }]).run {}
        = .ok answers {} ∧
      (∀ answer ∈ answers, answer.1 = .successful) ∧
      (answers.flatMap Prod.snd).Perm (repeatedIdEvents.map EventRecord.eventId)) ∧
    listEventIds repeatedIdEvents 0 1776758699 = [1] ∧
    listEventIds repeatedIdEvents 1776758700 0xffffffff = [1] := by
  have hfits : ∀ timeStart timeStop, WindowFits repeatedIdEvents timeStart timeStop := by
    intro timeStart timeStop
    have hle : (eventsIn repeatedIdEvents timeStart timeStop).length ≤ 2 := List.length_filter_le _ _
    have hmax : 4 + (8 + 2 * 4) + 1 ≤ Klv.maxLength := by decide
    unfold WindowFits
    omega
  exact ⟨(adjacent_windows_partition repeatedIdEvents InMemoryLeKeyStore.toStore
    (AsmService.ofEvents repeatedIdEvents).spbStatusProvider {} [1776758700] _ (by decide) (by decide)
    (by decide) fun query _ => hfits _ _).1, by decide, by decide⟩

end AsmProto
