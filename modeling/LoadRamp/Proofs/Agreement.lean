import LoadRamp.Definition
import LoadRamp.Proofs.Resolving

/-!
# Definitions and configurations agree

A configuration is checked when it is resolved, and what it comes to is taken apart
and checked once more when a draft is built.  The second check finds nothing that the
first one let through: only the base URL is left to it.

* `Draft.ofResolved` is the draft of what a configuration comes to.
* `Draft.build_ofResolved`: all but the base URL of such a draft is in order.
* `Definition.Agrees` says that a definition holds what a configuration comes to, part
  by part.
* `Draft.definition_agrees`: that is what comes of a configuration and the options, whatever
  parser tells URLs from other texts.
-/

namespace LoadRamp

open Config (Resolved)

/-- Whether a text is a URL that requests can be sent below, for a parser of URLs. -/
def IsWebUrl (parse : Http.Url.Parser) (url : String) : Prop :=
  parse url = .ok "http" ∨ parse url = .ok "https"

/-- A definition holds what a configuration comes to.  The base URL is that of the options, if they
name one, and half a minute is the time a request may take when nothing else is said. -/
structure Definition.Agrees (d : Definition) (options : Options) (r : Resolved)
    (factory : Definition.Factory) : Prop where
  name : d.name = r.scenario.name
  baseUrl : (options.baseUrl? <|> r.baseUrl?) = some d.baseUrl
  schedule : d.schedule = r.schedule
  scenario : d.scenario = r.scenario
  settings : d.settings = r.settings
  requestTimeout : d.requestTimeout = r.requestTimeout?.getD (Duration.ofSeconds 30)
  options : d.options = options
  factory : d.factory = factory

/-! ## Intervals and base URLs -/

theorem Duration.ofMillis_pos {millis : Nat} (h : millis ≠ 0) : 0 < (ofMillis millis).nanos := by
  unfold ofMillis clamp
  split
  · dsimp only
    omega
  · decide

/-- A tick interval that was accepted is no instant. -/
theorem Config.Means.tick_pos {lookup : String → Option String} {c : Config} {r : Resolved}
    (h : c.Means lookup r) : 0 < r.settings.tickInterval.nanos := by
  obtain ⟨hzero, htick⟩ := h.tick
  rw [htick]
  cases hmillis : c.tickIntervalMillis? with
  | none => decide +kernel
  | some millis =>
    rw [Option.map_some, Option.getD_some]
    exact Duration.ofMillis_pos fun hnone => hzero (hnone ▸ hmillis)

namespace Draft

variable {parse : Http.Url.Parser}

theorem checkBaseUrl_eq_ok {url : String} :
    checkBaseUrl parse url = .ok () ↔ IsWebUrl parse url := by
  unfold checkBaseUrl IsWebUrl
  cases parse url with
  | error error => simp
  | ok scheme =>
    rw [Except.ok.injEq, Except.ok.injEq]
    dsimp only
    split
    · next hscheme => exact ⟨fun _ => hscheme, fun _ => rfl⟩
    · next hscheme => exact ⟨nofun, fun h => absurd h hscheme⟩

theorem checkedBaseUrl_eq_ok {d : Draft} {url : String} :
    d.checkedBaseUrl parse = .ok url ↔ d.baseUrl? = some url ∧ IsWebUrl parse url := by
  unfold checkedBaseUrl
  cases d.baseUrl? with
  | none => simp
  | some own =>
    rw [Option.some.injEq, bind_eq_ok]
    constructor
    · rintro ⟨_, hweb, hown⟩
      obtain rfl := Except.ok.inj hown
      exact ⟨rfl, checkBaseUrl_eq_ok.1 hweb⟩
    · rintro ⟨rfl, hweb⟩
      exact ⟨(), checkBaseUrl_eq_ok.2 hweb, rfl⟩

/-! ## Drafts of configurations -/

/-- The draft of what a configuration comes to. -/
def ofResolved (options : Options) (r : Resolved) : Draft where
  name := r.scenario.name
  options := options
  defaultBaseUrl? := r.baseUrl?
  stages := r.schedule.stages
  startTarget := r.schedule.startTarget
  groups := r.scenario.groups
  settings := r.settings
  requestTimeout := r.requestTimeout?.getD (Duration.ofSeconds 30)

/-- The configuration that counts beside the options: without its base URL, if they name one. -/
def counting (options : Options) (c : Config) : Config :=
  if options.baseUrl?.isSome then { c with baseUrl? := none } else c

theorem ofConfig_eq (lookup : String → Option String) (options : Options) (c : Config) :
    ofConfig lookup options c =
      (counting options c).resolve lookup >>= fun r => .ok (ofResolved options r) :=
  rfl

/-- The schedule and the scenario are made again from their parts, and come out as they were. -/
theorem build_ofResolved (options : Options) (r : Resolved) (factory : Definition.Factory)
    (htick : 0 < r.settings.tickInterval.nanos) :
    ((ofResolved options r).withTransport factory).build parse =
      (((ofResolved options r).checkedBaseUrl parse).mapError .invalid >>= fun baseUrl => .ok
        { name := r.scenario.name, baseUrl, schedule := r.schedule, scenario := r.scenario
          settings := r.settings
          requestTimeout := r.requestTimeout?.getD (Duration.ofSeconds 30)
          options, factory, tick_pos := htick }) := by
  have hschedule : scheduleOf r.schedule.stages r.schedule.startTarget = .ok r.schedule :=
    scheduleOf_eq_ok.2 ⟨rfl, rfl⟩
  have hscenario : scenarioOf r.scenario.name r.scenario.groups = .ok r.scenario :=
    scenarioOf_eq_ok.2 ⟨rfl, rfl⟩
  have hparts (baseUrl : String) :
      (if h : 0 < r.settings.tickInterval.nanos then
        scheduleOf r.schedule.stages r.schedule.startTarget >>= fun schedule =>
          scenarioOf r.scenario.name r.scenario.groups >>= fun scenario =>
            Except.ok
              { name := r.scenario.name, baseUrl, schedule, scenario, settings := r.settings
                requestTimeout := r.requestTimeout?.getD (Duration.ofSeconds 30)
                options, factory, tick_pos := h : Definition }
      else .error (.invalid .zeroTick)) = .ok
        { name := r.scenario.name, baseUrl, schedule := r.schedule, scenario := r.scenario
          settings := r.settings
          requestTimeout := r.requestTimeout?.getD (Duration.ofSeconds 30)
          options, factory, tick_pos := htick } := by
    rw [dif_pos htick, hschedule, hscenario]
    rfl
  exact bind_congr hparts

theorem build_eq_ok {options : Options} {r : Resolved} {factory : Definition.Factory}
    (htick : 0 < r.settings.tickInterval.nanos) {d : Definition} :
    ((ofResolved options r).withTransport factory).build parse = .ok d ↔
      d.Agrees options r factory ∧ IsWebUrl parse d.baseUrl := by
  rw [build_ofResolved options r factory htick, bind_eq_ok]
  simp only [mapError_eq_ok, checkedBaseUrl_eq_ok, Except.ok.injEq]
  constructor
  · rintro ⟨baseUrl, ⟨hbaseUrl, hweb⟩, rfl⟩
    exact ⟨⟨rfl, hbaseUrl, rfl, rfl, rfl, rfl, rfl, rfl⟩, hweb⟩
  · obtain ⟨name, baseUrl, schedule, scenario, settings, requestTimeout, _, _, tick_pos⟩ := d
    rintro ⟨⟨rfl, hbaseUrl, rfl, rfl, rfl, rfl, rfl, rfl⟩, hweb⟩
    exact ⟨baseUrl, ⟨hbaseUrl, hweb⟩, rfl⟩

/-- What comes of a configuration beside the options is what the configuration comes to, or the
refusal of it.  A draft of it is built exactly when there is a base URL that requests can be sent
below, the definition then holds every part unchanged, and nothing but the base URL can still be
refused.  When the options name a base URL, it does not matter what the configuration has there.
What is a URL is left to the parser. -/
theorem definition_agrees (parse : Http.Url.Parser) (lookup : String → Option String)
    (options : Options) (c : Config) (factory : Definition.Factory) :
    (∀ refusal, (counting options c).resolve lookup = .error refusal →
      ofConfig lookup options c = .error refusal) ∧
    (∀ r, (counting options c).resolve lookup = .ok r →
      ∃ draft, ofConfig lookup options c = .ok draft ∧
        ((∃ d, (draft.withTransport factory).build parse = .ok d) ↔
          ∃ url, (options.baseUrl? <|> r.baseUrl?) = some url ∧ IsWebUrl parse url) ∧
        (∀ d, (draft.withTransport factory).build parse = .ok d ↔
          d.Agrees options r factory ∧ IsWebUrl parse d.baseUrl) ∧
        ∀ refusal, (draft.withTransport factory).build parse = .error refusal →
          ∃ e, draft.checkedBaseUrl parse = .error e ∧ refusal = .invalid e) ∧
    (options.baseUrl?.isSome → ∀ url?,
      ofConfig lookup options { c with baseUrl? := url? } = ofConfig lookup options c) := by
  refine ⟨fun refusal hrefused => ?_, fun r hr => ?_, fun hgiven url? => ?_⟩
  · rw [ofConfig_eq, hrefused]
    rfl
  · have htick := (Config.resolve_eq_ok.1 hr).tick_pos
    have hbuild {d : Definition} :
        ((ofResolved options r).withTransport factory).build parse = .ok d ↔
          d.Agrees options r factory ∧ IsWebUrl parse d.baseUrl := build_eq_ok htick
    refine ⟨ofResolved options r, by rw [ofConfig_eq, hr]; rfl, ⟨?_, ?_⟩, fun d => hbuild, ?_⟩
    · rintro ⟨d, hd⟩
      obtain ⟨hagrees, hweb⟩ := hbuild.1 hd
      exact ⟨d.baseUrl, hagrees.baseUrl, hweb⟩
    · rintro ⟨url, hurl, hweb⟩
      have hchecked : (ofResolved options r).checkedBaseUrl parse = .ok url :=
        checkedBaseUrl_eq_ok.2 ⟨hurl, hweb⟩
      rw [build_ofResolved options r factory htick, hchecked]
      exact ⟨_, rfl⟩
    · intro refusal hrefused
      rw [build_ofResolved options r factory htick, bind_eq_error] at hrefused
      obtain hrefused | ⟨_, _, hnever⟩ := hrefused
      · obtain ⟨e, he, rfl⟩ := mapError_eq_error.1 hrefused
        exact ⟨e, he, rfl⟩
      · cases hnever
  · simp only [ofConfig_eq, counting, if_pos hgiven]

/-- A base URL with a variable that has no value: the configuration is refused on its own, and
comes to a definition below the base URL of the options. -/
theorem definition_agrees_override :
    let lookup : String → Option String := fun _ => none
    let options : Options := { baseUrl? := some "http://a" }
    let factory : Definition.Factory := fun _ => .error "no service"
    let c : Config := {
      baseUrl? := some "http://$\x7bHOST\x7d"
      stages := [⟨.seconds (.finite false 30), 5⟩]
      gracePeriodSeconds? := some (.finite false 3)
      scenario := ⟨"s", [{ name := "g", method := "get", path := "/" }]⟩ }
    (∃ refusal, ofConfig lookup {} c = .error refusal) ∧
    ofConfig lookup options { c with baseUrl? := none } = ofConfig lookup options c ∧
    ∃ draft d, ofConfig lookup options c = .ok draft ∧
      (draft.withTransport factory).build = .ok d ∧ d.baseUrl = "http://a" ∧
      d.requestTimeout = Duration.ofSeconds 30 := by
  intro lookup options factory c
  refine ⟨?_, (definition_agrees Http.Url.parse lookup options c factory).2.2 rfl none, ?_⟩
  · have hrefused : ((counting {} c).resolve lookup).isOk = false := by decide +kernel
    cases hresolved : (counting {} c).resolve lookup with
    | ok r =>
      rw [hresolved] at hrefused
      cases hrefused
    | error refusal =>
      exact ⟨refusal, (definition_agrees Http.Url.parse lookup {} c factory).1 refusal hresolved⟩
  · have haccepted : (((counting options c).resolve lookup).toOption.map
        Resolved.requestTimeout?) = some none := by decide +kernel
    cases hresolved : (counting options c).resolve lookup with
    | error refusal =>
      rw [hresolved] at haccepted
      cases haccepted
    | ok r =>
      rw [hresolved] at haccepted
      have htimeout : r.requestTimeout? = none := Option.some.inj haccepted
      obtain ⟨draft, hdraft, hbuilds, hagrees, -⟩ :=
        (definition_agrees Http.Url.parse lookup options c factory).2.1 r hresolved
      obtain ⟨d, hd⟩ := hbuilds.2 ⟨"http://a", rfl, .inl (by decide +kernel)⟩
      obtain ⟨hd', -⟩ := (hagrees d).1 hd
      refine ⟨draft, d, hdraft, hd, (Option.some.inj hd'.baseUrl).symm, ?_⟩
      rw [hd'.requestTimeout, htimeout]
      rfl

end Draft
end LoadRamp
