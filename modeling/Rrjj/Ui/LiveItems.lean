import Rrjj.Ui.LiveFollowing

/-! The list in the page: what it shows is the timeline, item by item, and nothing that an event or a
message says becomes markup of the page. -/

namespace Rrjj
open Library

def SeqInert (host : LiveHost) (events : List JsValue) : Prop :=
  ∀ event ∈ events, ∀ text, textOr host.page "?" (event.get "seq") = some text → text.Inert

def IsItem (item : JsText) : Prop := ∃ texts : ItemTexts, item = texts.markup ∧ texts.Inert

structure Listed (host : LiveHost) (view : RrjjLive) : Prop where
  rendered : ∀ items, renderItems host.page view.timeline.events = some items → view.items = items
  numbered : SeqInert host view.timeline.events
  inert : ∀ item ∈ view.items, IsItem item

section
variable {host : LiveHost} {events : List JsValue} {timeline : LiveTimeline} {view : RrjjLive}

theorem textOr_number (documented : host.Documented) {value : JsValue} {seq : ℤ}
    (isNumber : value.safeInteger? = some seq) {text : JsText}
    (h : textOr host.page "?" value = some text) : text.Inert := by
  cases value with
  | number number =>
    rw [← Option.some.inj (show some (host.page.numberText number) = some text from h)]
    exact documented.numbers number
  | _ => exact absurd isNumber.symm (Option.some_ne_none _)

theorem SeqInert.append {more : List JsValue} (h : SeqInert host events) (other : SeqInert host more) :
    SeqInert host (events ++ more) := by
  intro event hevent
  rcases List.mem_append.mp hevent with hold | hnew
  · exact h event hold
  · exact other event hnew

theorem seqInert_notice (host : LiveHost) (type : String) (detail : JsValue) :
    SeqInert host [streamNotice type detail] := by
  intro event hevent text htext
  rw [List.mem_singleton.mp hevent, streamNotice_seq] at htext
  rw [← Option.some.inj (show some (JsText.of "?") = some text from htext)]
  exact ⟨by decide, by decide⟩

theorem SeqInert.appendLiveEvent (documented : host.Documented) (h : SeqInert host timeline.events)
    (value : JsValue) : SeqInert host (timeline.appendLiveEvent value).events := by
  rcases hresync : timeline.requiresResync with _ | _
  · rcases @LiveTimeline.appendLiveEvent_cases timeline value hresync with hnotice | hadded
    · obtain ⟨type, detail, heq⟩ := hnotice
      rw [heq]
      exact h.append (seqInert_notice host type detail)
    · obtain ⟨envelope, hvalid, -, -, heq⟩ := hadded
      rw [heq]
      apply h.append
      intro event hevent text htext
      rw [List.mem_singleton.mp hevent] at htext
      exact textOr_number documented (validEnvelope_some_iff.mp hvalid).2.1 htext
  · rw [LiveTimeline.appendLiveEvent_blocked hresync]
    exact h

theorem seqInert_durable (documented : host.Documented) (durable : DurableTimeline) :
    SeqInert host (createLiveTimeline durable).events := by
  obtain ⟨envelopes, hmap, -⟩ := validateFrom_ok durable.valid
  intro event hevent text htext
  have hmem : validEnvelope event ∈ envelopes.map some := hmap ▸ List.mem_map_of_mem hevent
  obtain ⟨envelope, -, hvalid⟩ := List.mem_map.mp hmem
  exact textOr_number documented (validEnvelope_some_iff.mp hvalid.symm).2.1 htext

theorem renderItems_inert (numbered : SeqInert host events) {items : List JsText}
    (h : renderItems host.page events = some items) : ∀ item ∈ items, IsItem item := by
  intro item hitem
  obtain ⟨event, hevent, hmarkup⟩ := mapM_some_mem h hitem
  obtain ⟨texts, htexts, rfl⟩ := Option.map_eq_some_iff.mp hmarkup
  exact ⟨texts, rfl, itemTexts_inert htexts (numbered event hevent)⟩

theorem Listed.via {first : RrjjLive} (h : Listed host first) (timeline : view.timeline = first.timeline)
    (items : view.items = first.items) : Listed host view where
  rendered := timeline ▸ items ▸ h.rendered
  numbered := timeline ▸ h.numbered
  inert := items ▸ h.inert

theorem listed_render (numbered : SeqInert host view.timeline.events)
    (inert : ∀ item ∈ view.items, IsItem item) : Listed host ((view.render host).getD view) := by
  unfold RrjjLive.render
  rcases hitems : renderItems host.page view.timeline.events with _ | items
  · exact ⟨fun _ h => absurd (hitems.symm.trans h).symm (Option.some_ne_none _), numbered, inert⟩
  · refine ⟨fun _ h => Option.some.inj (hitems.symm.trans h), numbered, renderItems_inert numbered hitems⟩

theorem listed_invalid (documented : host.Documented) (numbered : SeqInert host view.timeline.events)
    (inert : ∀ item ∈ view.items, IsItem item) : Listed host (view.invalid host) := by
  unfold RrjjLive.invalid
  apply listed_render
  · exact numbered.appendLiveEvent documented .null
  · rw [RrjjLive.disconnect_items]
    exact inert

theorem Listed.onEvent (documented : host.Documented) (h : Listed host view) (source : ℕ) (data : JsText) :
    Listed host (view.onEvent host source data) := by
  unfold RrjjLive.onEvent
  split_ifs
  · exact h
  rcases host.parse data with message | value
  · exact listed_invalid documented h.numbered h.inert
  have hnumbered := h.numbered.appendLiveEvent documented value
  have hrender := @listed_render host { view with timeline := view.timeline.appendLiveEvent value }
    hnumbered h.inert
  dsimp only
  split
  · exact listed_invalid documented hnumbered h.inert
  · next after hsome =>
    rw [hsome] at hrender
    split_ifs
    · exact hrender.via RrjjLive.disconnect_timeline RrjjLive.disconnect_items
    · exact hrender

theorem Listed.onOverflow (h : Listed host view) (source : ℕ) (data : JsText) :
    Listed host (view.onOverflow host source data) := by
  unfold RrjjLive.onOverflow
  split_ifs
  · exact h
  rcases htold : view.overflowed host data with message | timeline
  · exact h
  have hnumbered : SeqInert host timeline.events := by
    obtain ⟨detail, rfl⟩ := appendSseOverflow_ok htold
    exact h.numbered.append (seqInert_notice host _ detail)
  have hrender := @listed_render host { view with timeline := timeline } hnumbered h.inert
  dsimp only
  split
  · next hnone =>
    rw [hnone] at hrender
    exact hrender
  · next after hsome =>
    rw [hsome] at hrender
    exact hrender.via RrjjLive.disconnect_timeline RrjjLive.disconnect_items

theorem Listed.receive (documented : host.Documented) (h : Listed host view) (source : ℕ)
    (message : SseMessage) : Listed host (view.receive host source message) := by
  unfold RrjjLive.receive
  split_ifs
  · exact h.onEvent documented source _
  · exact h.onOverflow source _
  · exact h

theorem Listed.loaded (documented : host.Documented) (h : Listed host view) (text : JsText) :
    Listed host (view.loaded host text) := by
  unfold RrjjLive.loaded
  split
  · next durable _ => exact listed_render (seqInert_durable documented durable) h.inert
  · exact h

theorem Listed.rewired {after : RrjjLive} (h : Listed host view) (rewired : view.Rewired after) :
    Listed host after := h.via rewired.timeline rewired.items

end

namespace LiveSession
variable {host : LiveHost} {s s' : LiveSession} {move : LiveMove} {meets : LiveSession → LiveMove → Prop}
  {sessionId : String}

theorem Free.listed (documented : host.Documented) (made : Free host s move s') (h : Listed host s.view) :
    Listed host s'.view := by
  cases made with
  | own made =>
    cases made with
    | record | restart | opened | pump | drop => exact h
    | message => exact h.receive documented _ _
    | click => exact h.rewired (RrjjLive.click_rewired _)
    | choose => exact h.rewired (RrjjLive.choose_rewired _)
    | loaded => exact h.loaded documented _
    | probed => exact h.rewired (RrjjLive.probed_rewired ..)
    | attach => exact h.rewired (RrjjLive.connectedCallback_rewired ..)
    | detach => exact h.rewired (RrjjLive.disconnectedCallback_rewired _)
  | stray => exact h.receive documented _ _

/-- In every run, whatever is sent to the page and whichever files are loaded, the list in the page is
that of the timeline where this can be rendered, and an item holds texts without tags between the tags
that the component has put there itself. -/
theorem live_list_is_inert (documented : host.Documented)
    (run : Run (Free host) meets (initial sessionId) s) :
    (∀ items, renderItems host.page s.view.timeline.events = some items → s.view.items = items) ∧
      ∀ item ∈ s.view.items, ∃ texts : ItemTexts, item = texts.markup ∧ texts.Inert := by
  have hlisted : Listed host s.view := by
    induction run with
    | start =>
      exact ⟨fun _ h => Option.some.inj h, seqInert_durable documented .empty,
        fun _ h => absurd h List.not_mem_nil⟩
    | step _ _ _ made ih => exact made.listed documented ih
  exact ⟨hlisted.rendered, hlisted.inert⟩

theorem live_list_is_inert_followed : ∃ s, Run (Free (exampleHost 4)) (fun _ _ => True) (initial "s") s ∧
    s.view.items.length = 1 ∧
    ∀ item ∈ s.view.items, ∃ texts : ItemTexts, item = texts.markup ∧ texts.Inert := by
  obtain ⟨s, run, -, -, htimeline, -⟩ := example_followed
  have free : Run (Free (exampleHost 4)) (fun _ _ => True) (initial "s") s := by
    clear htimeline
    induction run with
    | start => exact .start
    | step move _ _ made ih => exact ih.step move trivial (.own made)
  obtain ⟨hrendered, hinert⟩ := live_list_is_inert (exampleHost_documented 4) free
  refine ⟨s, free, ?_, hinert⟩
  have hcount : (renderItems (exampleHost 1).page exampleTimeline.events).map List.length = some 1 := by
    decide +kernel
  obtain ⟨items, hitems, hlength⟩ := Option.map_eq_some_iff.mp hcount
  rw [hrendered items (by rw [htimeline]; exact hitems)]
  exact hlength

end LiveSession

end Rrjj
