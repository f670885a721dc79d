import FlanTerminal.Shared.SettingsAgreement

/-!
# Settings routes

What the routes for settings answer: the response is built by the parser that
the client applies to it, and a mutation goes through the parser for mutations
and, in the store, through the parser for stored settings.
-/

namespace FlanTerminal
namespace Server
namespace SettingsRoutes

open Foundation
open Shared

/-!
## Responses as objects
-/

def limitJson (limit : NumericSettingLimit) : Json :=
  Json.obj [(js "min", Json.num limit.min), (js "max", Json.num limit.max),
    (js "step", Json.num limit.step)]

def optionsJson {value : Type} (text : value -> JsString)
    (values : List value) : Json :=
  Json.arr (values.map fun a => Json.str (text a))

def limitsJson (limits : WorkspaceSettingsLimits) : Json :=
  Json.obj
    [(js "fontFamilies", optionsJson FontFamily.text limits.fontFamilies),
      (js "fontSize", limitJson limits.fontSize),
      (js "lineHeight", limitJson limits.lineHeight),
      (js "letterSpacing", limitJson limits.letterSpacing),
      (js "scrollback", limitJson limits.scrollback),
      (js "themes", optionsJson Theme.text limits.themes),
      (js "cursorStyles", optionsJson CursorStyle.text limits.cursorStyles),
      (js "bellBehaviors", optionsJson BellBehavior.text limits.bellBehaviors),
      (js "reconnectBehaviors",
        optionsJson ReconnectBehavior.text limits.reconnectBehaviors),
      (js "workspaceShortcutModes",
        optionsJson WorkspaceShortcutMode.text limits.workspaceShortcutModes),
      (js "tmuxHistoryLimit", limitJson limits.tmuxHistoryLimit),
      (js "staleSessionCleanupHours",
        limitJson limits.staleSessionCleanupHours)]

def responseJson (response : SettingsResponse) : Json :=
  Json.obj
    [(js "settings", response.settings.json),
      (js "limits", limitsJson response.limits),
      (js "allowedShells", optionsJson id response.allowedShells)]

/-!
## Routes
-/

section Routes

variable (nfc : JsString -> JsString)

def copied (constraints : Json) (key : JsString) : JsMap JsString Json :=
  match constraints with
  | Json.obj ms =>
      match JsMap.get ms key with
      | some value => [(key, value)]
      | none => []
  | _ => []

def buildAuthoritativeResponse (snapshot : WorkspaceSettings)
    (constraints : Json) : Option SettingsResponse :=
  parseWorkspaceSettingsResponse nfc
    (Json.obj ((js "settings", snapshot.json) ::
      (copied constraints (js "limits") ++
        copied constraints (js "allowedShells"))))

/-- The settings that a request carries, or an invalid request. -/
def validateMutation (constraints body : Json) : Option WorkspaceSettings :=
  parseWorkspaceSettingsMutation nfc body (some constraints)

def replaced (constraints : Json) (candidate : WorkspaceSettings) :
    Option WorkspaceSettings :=
  parseWorkspaceSettings nfc candidate.json (some constraints)

end Routes

/-!
## The constraints are stable
-/

theorem stable_options {value : Type} [DecidableEq value]
    {schema : Schema value} {text : value -> JsString}
    (hstable : Schema.Stable schema fun a => Json.str (text a)) :
    Schema.Stable (uniqueOptions schema) (optionsJson text) :=
  Schema.stable_array hstable _

theorem stable_limit : Schema.Stable numericSettingLimitSchema limitJson := by
  intro v limit h
  rcases Schema.strictObject_some h with ⟨ms, _, _, h⟩
  rcases Option.bind_eq_some_iff.mp h with ⟨min, hmin, h⟩
  rcases Option.bind_eq_some_iff.mp h with ⟨max, hmax, h⟩
  rcases Option.bind_eq_some_iff.mp h with ⟨step, hstep, h⟩
  split at h
  · rename_i hle
    cases h
    refine Schema.strictObject_of rfl ?_
    refine Schema.bind_of
      (Schema.field_again (Schema.stable_number _) hmin rfl) ?_
    refine Schema.bind_of
      (Schema.field_again (Schema.stable_number _) hmax rfl) ?_
    refine Schema.bind_of
      (Schema.field_again (Schema.stable_number _) hstep rfl) ?_
    exact if_pos hle
  · cases h

theorem stable_boundedLimit (minimum maximum quantum : ℚ) (integers : Bool) :
    Schema.Stable (boundedLimit minimum maximum quantum integers) limitJson :=
  Schema.stable_filter stable_limit _

theorem stable_limits :
    Schema.Stable workspaceSettingsLimitsSchema limitsJson := by
  intro v limits h
  rcases Schema.strictObject_some h with ⟨ms, _, _, h⟩
  rcases Option.bind_eq_some_iff.mp h with ⟨fontFamilies, h1, h⟩
  rcases Option.bind_eq_some_iff.mp h with ⟨fontSize, h2, h⟩
  rcases Option.bind_eq_some_iff.mp h with ⟨lineHeight, h3, h⟩
  rcases Option.bind_eq_some_iff.mp h with ⟨letterSpacing, h4, h⟩
  rcases Option.bind_eq_some_iff.mp h with ⟨scrollback, h5, h⟩
  rcases Option.bind_eq_some_iff.mp h with ⟨themes, h6, h⟩
  rcases Option.bind_eq_some_iff.mp h with ⟨cursorStyles, h7, h⟩
  rcases Option.bind_eq_some_iff.mp h with ⟨bellBehaviors, h8, h⟩
  rcases Option.bind_eq_some_iff.mp h with ⟨reconnectBehaviors, h9, h⟩
  rcases Option.bind_eq_some_iff.mp h with ⟨workspaceShortcutModes, h10, h⟩
  rcases Option.bind_eq_some_iff.mp h with ⟨tmuxHistoryLimit, h11, h⟩
  rcases Option.bind_eq_some_iff.mp h with
    ⟨staleSessionCleanupHours, h12, h⟩
  cases h
  refine Schema.strictObject_of rfl ?_
  refine Schema.bind_of (Schema.field_again (stable_options
    (Schema.stable_enumeration FontFamily.text_injective)) h1 rfl) ?_
  refine Schema.bind_of
    (Schema.field_again (stable_boundedLimit _ _ _ _) h2 rfl) ?_
  refine Schema.bind_of
    (Schema.field_again (stable_boundedLimit _ _ _ _) h3 rfl) ?_
  refine Schema.bind_of
    (Schema.field_again (stable_boundedLimit _ _ _ _) h4 rfl) ?_
  refine Schema.bind_of
    (Schema.field_again (stable_boundedLimit _ _ _ _) h5 rfl) ?_
  refine Schema.bind_of (Schema.field_again (stable_options
    (Schema.stable_enumeration Theme.text_injective)) h6 rfl) ?_
  refine Schema.bind_of (Schema.field_again (stable_options
    (Schema.stable_enumeration CursorStyle.text_injective)) h7 rfl) ?_
  refine Schema.bind_of (Schema.field_again (stable_options
    (Schema.stable_enumeration BellBehavior.text_injective)) h8 rfl) ?_
  refine Schema.bind_of (Schema.field_again (stable_options
    (Schema.stable_enumeration ReconnectBehavior.text_injective)) h9 rfl) ?_
  refine Schema.bind_of (Schema.field_again (stable_options
    (Schema.stable_enumeration WorkspaceShortcutMode.text_injective)) h10
    rfl) ?_
  refine Schema.bind_of
    (Schema.field_again (stable_boundedLimit _ _ _ _) h11 rfl) ?_
  refine Schema.bind_of
    (Schema.field_again (stable_boundedLimit _ _ _ _) h12 rfl) ?_
  rfl

/-!
## The response is accepted
-/

section Agreement

variable {nfc : JsString -> JsString}

theorem deployed_within {s : WorkspaceSettings} {c : Json}
    (h : deployed nfc s (some c) = some s) :
    exists limits allowedShells limitsValue shellsValue,
      copied c (js "limits") = [(js "limits", limitsValue)] ∧
      workspaceSettingsLimitsSchema limitsValue = some limits ∧
      copied c (js "allowedShells") = [(js "allowedShells", shellsValue)] ∧
      uniqueOptions (absoluteShellSchema nfc) shellsValue =
        some allowedShells ∧
      withinDeployment s ⟨limits, allowedShells⟩ = true := by
  rcases Option.bind_eq_some_iff.mp h with ⟨parsedConstraints, hc, h⟩
  split at h
  · rename_i hwithin
    rcases Schema.strictObject_some hc with ⟨ms, hms, _, hread⟩
    rcases Option.bind_eq_some_iff.mp hread with ⟨limits, hlimits, hread⟩
    rcases Option.bind_eq_some_iff.mp hread with
      ⟨allowedShells, hshells, hread⟩
    rcases Schema.field_some hlimits with ⟨limitsValue, hget, hlimits⟩
    rcases Schema.field_some hshells with ⟨shellsValue, hget', hshells⟩
    cases hread
    refine ⟨limits, allowedShells, limitsValue, shellsValue, ?_, hlimits, ?_,
      hshells, hwithin⟩
    · rw [hms]
      unfold copied
      simp only [hget]
    · rw [hms]
      unfold copied
      simp only [hget']
  · cases h

theorem response_parse {s : WorkspaceSettings}
    {limits : WorkspaceSettingsLimits} {allowedShells : List JsString}
    {limitsValue shellsValue : Json}
    (hschema : workspaceSettingsSchema nfc s.json = some s)
    (hrest : normalizeCursorAccent s = s)
    (hlimits : workspaceSettingsLimitsSchema limitsValue = some limits)
    (hshells : uniqueOptions (absoluteShellSchema nfc) shellsValue =
      some allowedShells)
    (hwithin : withinDeployment s ⟨limits, allowedShells⟩ = true) :
    parseWorkspaceSettingsResponse nfc
        (Json.obj [(js "settings", s.json), (js "limits", limitsValue),
          (js "allowedShells", shellsValue)]) =
      some ⟨s, limits, allowedShells⟩ := by
  have hresponse : workspaceSettingsResponseSchema nfc
      (Json.obj [(js "settings", s.json), (js "limits", limitsValue),
        (js "allowedShells", shellsValue)]) =
      some ⟨s, limits, allowedShells⟩ := by
    refine Schema.strictObject_of rfl ?_
    refine Schema.bind_of
      (show Schema.field _ (js "settings") _ = _ from hschema) ?_
    refine Schema.bind_of
      (show Schema.field _ (js "limits") _ = _ from hlimits) ?_
    refine Schema.bind_of (show Schema.field _ (js "allowedShells") _ = _ from
      hshells) ?_
    rfl
  refine Schema.bind_of hresponse ?_
  simp only [hrest, hwithin, if_true]

/-- What the three parsers make of one value under the same constraints. -/
structure Agree (nfc : JsString -> JsString) (v c : Json) : Prop where
  stable : forall s, parseWorkspaceSettings nfc v (some c) = some s ->
    parseWorkspaceSettings nfc s.json (some c) = some s ∧
      isLegacy nfc s.json = false ∧
      exists ms, v = Json.obj ms ∧
        FieldsOf nfc FontFamily.all Theme.all ms s
  mutation : parseWorkspaceSettingsMutation nfc
      (Json.obj [(js "settings", v)]) (some c) =
    if isLegacy nfc v then none else parseWorkspaceSettings nfc v (some c)
  response : forall s, parseWorkspaceSettings nfc v (some c) = some s ->
    exists response, buildAuthoritativeResponse nfc s c = some response ∧
      response.settings = s ∧
      parseWorkspaceSettingsResponse nfc (responseJson response) =
        some response ∧
      validateMutation nfc c
        (Json.obj [(js "settings", response.settings.json)]) = some s ∧
      replaced nfc c s = some s

theorem settings_agree (hnfc : NormalForm nfc) (v c : Json) :
    Agree nfc v c := by
  constructor
  · intro s hs
    have hparsed := parse_some hnfc hs
    exact ⟨hparsed.parse, isLegacy_json s, hparsed.fields⟩
  · exact mutation_parse v (some c)
  · intro s hs
    have hparsed := parse_some hnfc hs
    rcases deployed_within hparsed.deployed with
      ⟨limits, allowedShells, limitsValue, shellsValue, hget, hlimits, hget',
        hshells, hwithin⟩
    refine ⟨⟨s, limits, allowedShells⟩, ?_, rfl, ?_, ?_, hparsed.parse⟩
    · unfold buildAuthoritativeResponse
      rw [hget, hget']
      exact response_parse hparsed.schema hparsed.rest hlimits hshells hwithin
    · exact response_parse hparsed.schema hparsed.rest
        (stable_limits _ _ hlimits)
        (stable_options (stable_absoluteShell hnfc) _ _ hshells) hwithin
    · unfold validateMutation
      rw [mutation_parse, isLegacy_json]
      exact hparsed.parse

/-- A document of the first release. -/
def sampleFields : JsMap JsString Json :=
  [(js "version", Json.num (JsNumber.finite 1)),
    (js "fontFamily", Json.str (js "system-monospace")),
    (js "fontSize", Json.num (JsNumber.finite 14)),
    (js "lineHeight", Json.num (JsNumber.finite (3 / 2))),
    (js "letterSpacing", Json.num (JsNumber.finite 0)),
    (js "scrollback", Json.num (JsNumber.finite 10000)),
    (js "theme", Json.str (js "dark")),
    (js "cursorStyle", Json.str (js "block")),
    (js "cursorBlink", Json.bool true),
    (js "bellBehavior", Json.str (js "none")),
    (js "reconnectBehavior", Json.str (js "automatic")),
    (js "automaticTabCreation", Json.bool true),
    (js "workspaceShortcuts", Json.str (js "default")),
    (js "defaultShell", Json.str (js "/bin/bash")),
    (js "tmuxHistoryLimit", Json.num (JsNumber.finite 50000)),
    (js "staleSessionCleanupHours", Json.num (JsNumber.finite 0))]

def sampleLimit (min max step : ℚ) : Json :=
  limitJson ⟨JsNumber.finite min, JsNumber.finite max, JsNumber.finite step⟩

def sampleConstraints : Json :=
  Json.obj
    [(js "limits", Json.obj
      [(js "fontFamilies", optionsJson FontFamily.text FontFamily.all),
        (js "fontSize", sampleLimit 8 32 1),
        (js "lineHeight", sampleLimit 1 2 (1 / 2)),
        (js "letterSpacing", sampleLimit 0 4 1),
        (js "scrollback", sampleLimit 0 100000 1),
        (js "themes", optionsJson Theme.text Theme.all),
        (js "cursorStyles", optionsJson CursorStyle.text [CursorStyle.block]),
        (js "bellBehaviors",
          optionsJson BellBehavior.text [BellBehavior.none]),
        (js "reconnectBehaviors", optionsJson ReconnectBehavior.text
          [ReconnectBehavior.automatic]),
        (js "workspaceShortcutModes", optionsJson WorkspaceShortcutMode.text
          [WorkspaceShortcutMode.default]),
        (js "tmuxHistoryLimit", sampleLimit 0 1000000 1),
        (js "staleSessionCleanupHours", sampleLimit 0 8760 1)]),
      (js "allowedShells", optionsJson id [js "/bin/bash"])]

theorem settings_agree_sample :
    isLegacy id (Json.obj sampleFields) = true ∧
      (parseWorkspaceSettings id (Json.obj sampleFields)
        (some sampleConstraints)).isSome = true ∧
      Agree id (Json.obj sampleFields) sampleConstraints := by
  refine ⟨?_, ?_, settings_agree normalForm_id _ _⟩
  · decide +kernel
  · decide +kernel

end Agreement

end SettingsRoutes
end Server
end FlanTerminal
