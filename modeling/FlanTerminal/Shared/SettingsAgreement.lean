import FlanTerminal.Shared.Settings

/-!
# The settings parsers agree

What a parser returns it returns again: the schemas are stable, and the two
changes of the palette come to rest after one round.  Stored settings that lack
the palette keep every other field.
-/

namespace FlanTerminal
namespace Shared

open Foundation

/-!
## Names of enumerated values
-/

theorem FontFamily.text_injective (a b : FontFamily) (h : a.text = b.text) :
    a = b := by
  revert h
  cases a <;> cases b <;> decide

theorem Theme.text_injective (a b : Theme) (h : a.text = b.text) : a = b := by
  revert h
  cases a <;> cases b <;> decide

theorem CursorStyle.text_injective (a b : CursorStyle)
    (h : a.text = b.text) : a = b := by
  revert h
  cases a <;> cases b <;> decide

theorem BellBehavior.text_injective (a b : BellBehavior)
    (h : a.text = b.text) : a = b := by
  revert h
  cases a <;> cases b <;> decide

theorem ReconnectBehavior.text_injective (a b : ReconnectBehavior)
    (h : a.text = b.text) : a = b := by
  revert h
  cases a <;> cases b <;> decide

theorem WorkspaceShortcutMode.text_injective (a b : WorkspaceShortcutMode)
    (h : a.text = b.text) : a = b := by
  revert h
  cases a <;> cases b <;> decide

/-!
## The fields of settings
-/

section Fields

variable {nfc : JsString -> JsString}

/-- The fields of the settings, but for the palette, are what the schemas make
of these members. -/
structure FieldsOf (nfc : JsString -> JsString) (fontFamilies : List FontFamily)
    (themes : List Theme) (ms : JsMap JsString Json) (s : WorkspaceSettings) :
    Prop where
  version : Schema.field ms (js "version") versionSchema = some s.version
  fontFamily : Schema.field ms (js "fontFamily")
    (Schema.enumeration fontFamilies FontFamily.text) = some s.fontFamily
  fontSize : Schema.field ms (js "fontSize") (integerSchema 8 32) =
    some s.fontSize
  lineHeight : Schema.field ms (js "lineHeight")
    (steppedNumber 1 2 (literal (1 / 20))) = some s.lineHeight
  letterSpacing : Schema.field ms (js "letterSpacing") (integerSchema 0 4) =
    some s.letterSpacing
  scrollback : Schema.field ms (js "scrollback") (integerSchema 0 100000) =
    some s.scrollback
  theme : Schema.field ms (js "theme") (Schema.enumeration themes Theme.text) =
    some s.theme
  cursorStyle : Schema.field ms (js "cursorStyle") cursorStyleSchema =
    some s.cursorStyle
  cursorBlink : Schema.field ms (js "cursorBlink") Schema.boolean =
    some s.cursorBlink
  bellBehavior : Schema.field ms (js "bellBehavior") bellBehaviorSchema =
    some s.bellBehavior
  reconnectBehavior : Schema.field ms (js "reconnectBehavior")
    reconnectBehaviorSchema = some s.reconnectBehavior
  automaticTabCreation : Schema.field ms (js "automaticTabCreation")
    Schema.boolean = some s.automaticTabCreation
  workspaceShortcuts : Schema.field ms (js "workspaceShortcuts")
    workspaceShortcutModeSchema = some s.workspaceShortcuts
  defaultShell : Schema.field ms (js "defaultShell")
    (absoluteShellSchema nfc) = some s.defaultShell
  tmuxHistoryLimit : Schema.field ms (js "tmuxHistoryLimit")
    (integerSchema 0 1000000) = some s.tmuxHistoryLimit
  staleSessionCleanupHours : Schema.field ms (js "staleSessionCleanupHours")
    (integerSchema 0 8760) = some s.staleSessionCleanupHours

theorem readSettings_some {fontFamilies : List FontFamily}
    {themes : List Theme} {ms : JsMap JsString Json} {palette : Palette}
    {s : WorkspaceSettings}
    (h : readSettings nfc fontFamilies themes ms palette = some s) :
    FieldsOf nfc fontFamilies themes ms s ∧
      s.customTerminalPalette = palette := by
  unfold readSettings at h
  rcases Option.bind_eq_some_iff.mp h with ⟨version, h1, h⟩
  rcases Option.bind_eq_some_iff.mp h with ⟨fontFamily, h2, h⟩
  rcases Option.bind_eq_some_iff.mp h with ⟨fontSize, h3, h⟩
  rcases Option.bind_eq_some_iff.mp h with ⟨lineHeight, h4, h⟩
  rcases Option.bind_eq_some_iff.mp h with ⟨letterSpacing, h5, h⟩
  rcases Option.bind_eq_some_iff.mp h with ⟨scrollback, h6, h⟩
  rcases Option.bind_eq_some_iff.mp h with ⟨theme, h7, h⟩
  rcases Option.bind_eq_some_iff.mp h with ⟨cursorStyle, h8, h⟩
  rcases Option.bind_eq_some_iff.mp h with ⟨cursorBlink, h9, h⟩
  rcases Option.bind_eq_some_iff.mp h with ⟨bellBehavior, h10, h⟩
  rcases Option.bind_eq_some_iff.mp h with ⟨reconnectBehavior, h11, h⟩
  rcases Option.bind_eq_some_iff.mp h with ⟨automaticTabCreation, h12, h⟩
  rcases Option.bind_eq_some_iff.mp h with ⟨workspaceShortcuts, h13, h⟩
  rcases Option.bind_eq_some_iff.mp h with ⟨defaultShell, h14, h⟩
  rcases Option.bind_eq_some_iff.mp h with ⟨tmuxHistoryLimit, h15, h⟩
  rcases Option.bind_eq_some_iff.mp h with
    ⟨staleSessionCleanupHours, h16, h⟩
  cases h
  exact ⟨⟨h1, h2, h3, h4, h5, h6, h7, h8, h9, h10, h11, h12, h13, h14, h15,
    h16⟩, rfl⟩

theorem FieldsOf.read {fontFamilies : List FontFamily} {themes : List Theme}
    {ms : JsMap JsString Json} {s : WorkspaceSettings}
    (h : FieldsOf nfc fontFamilies themes ms s) (palette : Palette) :
    readSettings nfc fontFamilies themes ms palette =
      some { s with customTerminalPalette := palette } := by
  simp only [readSettings, Option.bind_eq_bind, h.version, h.fontFamily,
    h.fontSize, h.lineHeight, h.letterSpacing, h.scrollback, h.theme,
    h.cursorStyle, h.cursorBlink, h.bellBehavior, h.reconnectBehavior,
    h.automaticTabCreation, h.workspaceShortcuts, h.defaultShell,
    h.tmuxHistoryLimit, h.staleSessionCleanupHours, Option.bind_some,
    Option.pure_def]

theorem FieldsOf.palette {fontFamilies : List FontFamily} {themes : List Theme}
    {ms : JsMap JsString Json} {s : WorkspaceSettings}
    (h : FieldsOf nfc fontFamilies themes ms s) (palette : Palette) :
    FieldsOf nfc fontFamilies themes ms
      { s with customTerminalPalette := palette } :=
  { h with }

theorem field_congr {value : Type} {ms ms' : JsMap JsString Json}
    {key : JsString} (schema : Schema value) (h : ms'.get key = ms.get key) :
    Schema.field ms' key schema = Schema.field ms key schema := by
  unfold Schema.field
  rw [h]

theorem FieldsOf.congr {fontFamilies : List FontFamily} {themes : List Theme}
    {ms ms' : JsMap JsString Json} {s : WorkspaceSettings}
    (h : FieldsOf nfc fontFamilies themes ms s)
    (hget : forall key, key ∈ settingsKeys -> ms'.get key = ms.get key) :
    FieldsOf nfc fontFamilies themes ms' s := by
  constructor
  · rw [field_congr _ (hget _ (by decide))]
    exact h.version
  · rw [field_congr _ (hget _ (by decide))]
    exact h.fontFamily
  · rw [field_congr _ (hget _ (by decide))]
    exact h.fontSize
  · rw [field_congr _ (hget _ (by decide))]
    exact h.lineHeight
  · rw [field_congr _ (hget _ (by decide))]
    exact h.letterSpacing
  · rw [field_congr _ (hget _ (by decide))]
    exact h.scrollback
  · rw [field_congr _ (hget _ (by decide))]
    exact h.theme
  · rw [field_congr _ (hget _ (by decide))]
    exact h.cursorStyle
  · rw [field_congr _ (hget _ (by decide))]
    exact h.cursorBlink
  · rw [field_congr _ (hget _ (by decide))]
    exact h.bellBehavior
  · rw [field_congr _ (hget _ (by decide))]
    exact h.reconnectBehavior
  · rw [field_congr _ (hget _ (by decide))]
    exact h.automaticTabCreation
  · rw [field_congr _ (hget _ (by decide))]
    exact h.workspaceShortcuts
  · rw [field_congr _ (hget _ (by decide))]
    exact h.defaultShell
  · rw [field_congr _ (hget _ (by decide))]
    exact h.tmuxHistoryLimit
  · rw [field_congr _ (hget _ (by decide))]
    exact h.staleSessionCleanupHours

theorem FieldsOf.mono {fontFamilies : List FontFamily} {themes : List Theme}
    {ms : JsMap JsString Json} {s : WorkspaceSettings}
    (h : FieldsOf nfc fontFamilies themes ms s) :
    FieldsOf nfc FontFamily.all Theme.all ms s := by
  refine { h with fontFamily := ?_, theme := ?_ }
  · rcases Schema.field_some h.fontFamily with ⟨v, hget, hv⟩
    unfold Schema.field
    rw [hget]
    refine Schema.enumeration_mono FontFamily.text_injective ?_ hv
    intro a _
    cases a <;> decide
  · rcases Schema.field_some h.theme with ⟨v, hget, hv⟩
    unfold Schema.field
    rw [hget]
    refine Schema.enumeration_mono Theme.text_injective ?_ hv
    intro a _
    cases a <;> decide

theorem absoluteShell_again (hnfc : NormalForm nfc) (s t : JsString)
    (h : absoluteShell nfc s = some t) : absoluteShell nfc t = some t := by
  rcases Option.filter_eq_some_iff.mp h with ⟨hsafe, hslash⟩
  unfold absoluteShell
  rw [safeNormalizedString_idempotent hnfc hsafe]
  exact Option.filter_eq_some_iff.mpr ⟨rfl, hslash⟩

theorem stable_absoluteShell (hnfc : NormalForm nfc) :
    Schema.Stable (absoluteShellSchema nfc) Json.str :=
  Schema.stable_string (absoluteShell_again hnfc)

theorem FieldsOf.again (hnfc : NormalForm nfc)
    {ms : JsMap JsString Json} {s : WorkspaceSettings}
    (h : FieldsOf nfc FontFamily.all Theme.all ms s)
    {ms' : JsMap JsString Json} (hms : s.json = Json.obj ms') :
    FieldsOf nfc FontFamily.all Theme.all ms' s := by
  cases hms
  constructor
  · exact Schema.field_again (Schema.stable_number _) h.version rfl
  · exact Schema.field_again
      (Schema.stable_enumeration FontFamily.text_injective) h.fontFamily rfl
  · exact Schema.field_again (Schema.stable_number _) h.fontSize rfl
  · exact Schema.field_again (Schema.stable_number _) h.lineHeight rfl
  · exact Schema.field_again (Schema.stable_number _) h.letterSpacing rfl
  · exact Schema.field_again (Schema.stable_number _) h.scrollback rfl
  · exact Schema.field_again
      (Schema.stable_enumeration Theme.text_injective) h.theme rfl
  · exact Schema.field_again
      (Schema.stable_enumeration CursorStyle.text_injective) h.cursorStyle rfl
  · exact Schema.field_again Schema.stable_boolean h.cursorBlink rfl
  · exact Schema.field_again
      (Schema.stable_enumeration BellBehavior.text_injective) h.bellBehavior rfl
  · exact Schema.field_again
      (Schema.stable_enumeration ReconnectBehavior.text_injective)
      h.reconnectBehavior rfl
  · exact Schema.field_again Schema.stable_boolean h.automaticTabCreation rfl
  · exact Schema.field_again
      (Schema.stable_enumeration WorkspaceShortcutMode.text_injective)
      h.workspaceShortcuts rfl
  · exact Schema.field_again (stable_absoluteShell hnfc) h.defaultShell rfl
  · exact Schema.field_again (Schema.stable_number _) h.tmuxHistoryLimit rfl
  · exact Schema.field_again (Schema.stable_number _)
      h.staleSessionCleanupHours rfl

end Fields

/-!
## Palettes
-/

structure IsPalette (palette : Palette) : Prop where
  keys : palette.keys = terminalPaletteKeys
  colors : forall entry, entry ∈ palette -> isColor entry.2 = true

theorem terminalColor_some {v : Json} {color : JsString}
    (h : terminalColorSchema v = some color) :
    v = Json.str color ∧ isColor color = true := by
  cases v with
  | str s =>
      change (if isColor s = true then some s else none) = some color at h
      split at h
      · rename_i hcolor
        cases h
        exact ⟨rfl, hcolor⟩
      · cases h
  | _ => cases h

theorem readPalette_some {ms : JsMap JsString Json} {palette : Palette}
    (h : readPalette ms = some palette) : IsPalette palette := by
  have hall := mapM_some.mp h
  clear h
  have hgeneral : forall {keys : List JsString} {palette : Palette},
      List.Forall₂ (fun key entry => ((Schema.field ms key
        terminalColorSchema).map fun color => (key, color)) = some entry)
        keys palette ->
      palette.keys = keys ∧
        forall entry, entry ∈ palette -> isColor entry.2 = true := by
    intro keys palette hall
    induction hall with
    | nil => exact ⟨rfl, nofun⟩
    | cons hentry _ ih =>
        rcases Option.map_eq_some_iff.mp hentry with ⟨color, hcolor, heq⟩
        rcases Schema.field_some hcolor with ⟨v, _, hv⟩
        cases heq
        refine ⟨congrArg (List.cons _) ih.1, ?_⟩
        intro entry hmem
        cases hmem with
        | head => exact (terminalColor_some hv).2
        | tail _ hmem => exact ih.2 entry hmem
  rcases hgeneral hall with ⟨hkeys, hcolors⟩
  exact ⟨hkeys, hcolors⟩

theorem get_paletteMembers (palette : Palette) (key : JsString) :
    JsMap.get (palette.map fun entry => (entry.1, Json.str entry.2)) key =
      (palette.get key).map Json.str := by
  induction palette with
  | nil => rfl
  | cons entry rest ih =>
      rcases entry with ⟨j, color⟩
      rw [List.map_cons, JsMap.get_cons, JsMap.get_cons, ih]
      split
      · rfl
      · rfl

theorem IsPalette.read {palette : Palette} (h : IsPalette palette) :
    readPalette (palette.map fun entry => (entry.1, Json.str entry.2)) =
      some palette := by
  have hdistinct : palette.Distinct := by
    unfold JsMap.Distinct
    rw [h.keys]
    decide
  have hentry : forall entry, entry ∈ palette ->
      ((Schema.field (palette.map fun entry => (entry.1, Json.str entry.2))
        entry.1 terminalColorSchema).map fun color => (entry.1, color)) =
        some entry := by
    intro entry hmem
    have hget := JsMap.get_of_mem hdistinct hmem
    unfold Schema.field
    rw [get_paletteMembers, hget]
    change (if isColor entry.2 = true then some entry.2 else none).map _ = _
    rw [if_pos (h.colors entry hmem)]
    rfl
  unfold readPalette
  rw [← h.keys]
  apply mapM_some.mpr
  unfold JsMap.keys
  rw [List.forall₂_map_left_iff, List.forall₂_same]
  exact hentry

theorem IsPalette.schema {palette : Palette} (h : IsPalette palette) :
    customTerminalPaletteSchema (paletteJson palette) = some palette := by
  refine Schema.strictObject_of ?_ h.read
  rw [List.all_eq_true]
  intro m hm
  rcases List.mem_map.mp hm with ⟨entry, hentry, heq⟩
  apply Schema.listed_of_mem
  rw [← heq, ← h.keys]
  exact List.mem_map_of_mem hentry

theorem customTerminalPalette_some {v : Json} {palette : Palette}
    (h : customTerminalPaletteSchema v = some palette) : IsPalette palette := by
  rcases Schema.strictObject_some h with ⟨ms, _, _, hread⟩
  exact readPalette_some hread

theorem isPalette_midnight : IsPalette MIDNIGHT_ELECTRIC_TERMINAL_PALETTE :=
  ⟨by decide, by decide⟩

theorem IsPalette.get {palette : Palette} (h : IsPalette palette)
    {key : JsString} (hkey : key ∈ terminalPaletteKeys) :
    exists color, palette.get key = some color ∧ isColor color = true := by
  rw [← h.keys] at hkey
  rcases List.mem_map.mp hkey with ⟨entry, hentry, heq⟩
  have hdistinct : palette.Distinct := by
    unfold JsMap.Distinct
    rw [h.keys]
    decide
  refine ⟨entry.2, ?_, h.colors entry hentry⟩
  rw [← heq]
  exact JsMap.get_of_mem hdistinct hentry

theorem IsPalette.set {palette : Palette} (h : IsPalette palette)
    {key color : JsString} (hkey : key ∈ terminalPaletteKeys)
    (hcolor : isColor color = true) : IsPalette (palette.set key color) := by
  rcases h.get hkey with ⟨old, hold, _⟩
  refine ⟨(JsMap.keys_set_of_get hold color).trans h.keys, ?_⟩
  intro entry hmem
  rcases JsMap.mem_set hmem with hmem | hmem
  · exact h.colors entry hmem
  · rw [hmem]
    exact hcolor

/-!
## The schema of settings
-/

section Agreement

variable {nfc : JsString -> JsString}

theorem workspaceSettings_some {v : Json} {s : WorkspaceSettings}
    (h : workspaceSettingsSchema nfc v = some s) :
    exists ms, v = Json.obj ms ∧
      FieldsOf nfc FontFamily.all Theme.all ms s ∧
      IsPalette s.customTerminalPalette := by
  rcases Schema.strictObject_some h with ⟨ms, hv, _, hread⟩
  rcases Option.bind_eq_some_iff.mp hread with ⟨palette, hpalette, hread⟩
  rcases Schema.field_some hpalette with ⟨w, _, hw⟩
  rcases readSettings_some hread with ⟨hfields, heq⟩
  refine ⟨ms, hv, hfields, ?_⟩
  rw [heq]
  exact customTerminalPalette_some hw

theorem FieldsOf.schema (hnfc : NormalForm nfc) {ms : JsMap JsString Json}
    {s : WorkspaceSettings} (h : FieldsOf nfc FontFamily.all Theme.all ms s)
    (hpalette : IsPalette s.customTerminalPalette) :
    workspaceSettingsSchema nfc s.json = some s := by
  unfold WorkspaceSettings.json
  refine Schema.strictObject_of rfl ?_
  refine Schema.bind_of hpalette.schema ?_
  exact (h.again hnfc rfl).read s.customTerminalPalette

theorem normalizeCursorAccent_palette {s : WorkspaceSettings}
    (h : IsPalette s.customTerminalPalette) :
    IsPalette (normalizeCursorAccent s).customTerminalPalette := by
  unfold normalizeCursorAccent
  split
  · exact isPalette_midnight
  · have hkey : js "background" ∈ terminalPaletteKeys := by decide
    rcases h.get hkey with ⟨color, hget, hcolor⟩
    rw [hget]
    exact h.set (by decide) hcolor

theorem normalizeCursorAccent_fields {fontFamilies : List FontFamily}
    {themes : List Theme} {ms : JsMap JsString Json} {s : WorkspaceSettings}
    (h : FieldsOf nfc fontFamilies themes ms s) :
    FieldsOf nfc fontFamilies themes ms (normalizeCursorAccent s) := by
  unfold normalizeCursorAccent
  split
  · exact h.palette _
  · exact h.palette _

theorem normalizeCursorAccent_again {s : WorkspaceSettings}
    (h : IsPalette s.customTerminalPalette) :
    normalizeCursorAccent (normalizeCursorAccent s) =
      normalizeCursorAccent s := by
  by_cases htheme : s.theme = Theme.custom
  · have hbackground : js "cursorAccent" ≠ js "background" := by decide
    have hkey : js "background" ∈ terminalPaletteKeys := by decide
    rcases h.get hkey with ⟨color, hget, _⟩
    unfold normalizeCursorAccent
    simp only [htheme, ne_eq, not_true, if_false, JsMap.get_set, hbackground,
      hget, Option.getD_some]
    rw [JsMap.set_same (m := s.customTerminalPalette.set _ color)]
    rw [JsMap.get_set, if_pos rfl]
  · unfold normalizeCursorAccent
    simp only [htheme, ne_eq, not_false_iff, if_true]

/-!
## Legacy documents
-/

theorem legacy_some {v : Json} (h : isLegacy nfc v = true) :
    exists ms s, v = Json.obj ms ∧
      (ms.all fun m => Schema.listed settingsKeys m.1) = true ∧
      FieldsOf nfc [FontFamily.jetbrainsMonoNerd, FontFamily.systemMonospace]
        [Theme.dark, Theme.light, Theme.ubuntu] ms s := by
  rcases Option.isSome_iff_exists.mp h with ⟨s, hs⟩
  rcases Schema.strictObject_some hs with ⟨ms, hv, hkeys, hread⟩
  exact ⟨ms, s, hv, hkeys, (readSettings_some hread).1⟩

theorem isLegacy_json (s : WorkspaceSettings) :
    isLegacy nfc s.json = false := by
  unfold isLegacy legacySchema WorkspaceSettings.json
  rw [Schema.strictObject_none
    (m := (js "customTerminalPalette", paletteJson s.customTerminalPalette))]
  · rfl
  · simp
  · show Schema.listed settingsKeys (js "customTerminalPalette") = false
    decide

theorem legacy_refused {v : Json} (h : isLegacy nfc v = true) :
    workspaceSettingsSchema nfc v = none := by
  rcases legacy_some h with ⟨ms, _, hv, hkeys, _⟩
  rw [Option.eq_none_iff_forall_ne_some, hv]
  intro s hs
  rcases Schema.strictObject_some hs with ⟨ms', heq, _, hread⟩
  cases heq
  rcases Option.bind_eq_some_iff.mp hread with ⟨palette, hpalette, _⟩
  rcases Schema.field_some hpalette with ⟨w, hget, _⟩
  have hmem : Schema.listed settingsKeys (js "customTerminalPalette") = true :=
    List.all_eq_true.mp hkeys _ (JsMap.mem_of_get hget)
  revert hmem
  decide

theorem palette_ne {key : JsString} (hkey : key ∈ settingsKeys) :
    js "customTerminalPalette" ≠ key := by
  intro heq
  rw [← heq] at hkey
  revert hkey
  decide

theorem normalizeLegacyPalette_fields {v : Json} {s : WorkspaceSettings}
    (h : workspaceSettingsSchema nfc (normalizeLegacyPalette nfc v) = some s) :
    exists ms, v = Json.obj ms ∧
      FieldsOf nfc FontFamily.all Theme.all ms s := by
  rcases workspaceSettings_some h with ⟨ms', heq, hfields, _⟩
  cases v with
  | obj ms =>
      refine ⟨ms, rfl, ?_⟩
      change (if _ then _ else _) = _ at heq
      split at heq
      · cases heq
        apply hfields.congr
        intro key hkey
        rw [JsMap.get_set, if_neg (palette_ne hkey)]
      · cases heq
        exact hfields
  | _ => cases heq

/-- Every legacy document is accepted once it has a palette. -/
theorem legacy_migrates {v : Json} (h : isLegacy nfc v = true) :
    (parseWorkspaceSettings nfc v none).isSome = true := by
  rcases legacy_some h with ⟨ms, s, hv, hkeys, hfields⟩
  have hnormalized : normalizeLegacyPalette nfc v =
      Json.obj (JsMap.set ms (js "customTerminalPalette")
        (paletteJson MIDNIGHT_ELECTRIC_TERMINAL_PALETTE)) := by
    rw [hv] at h ⊢
    exact if_pos h
  have hkept : FieldsOf nfc FontFamily.all Theme.all
      (JsMap.set ms (js "customTerminalPalette")
        (paletteJson MIDNIGHT_ELECTRIC_TERMINAL_PALETTE)) s := by
    apply hfields.mono.congr
    intro key hkey
    rw [JsMap.get_set, if_neg (palette_ne hkey)]
  have hread := hkept.read MIDNIGHT_ELECTRIC_TERMINAL_PALETTE
  have hschema : workspaceSettingsSchema nfc (normalizeLegacyPalette nfc v) =
      some { s with
        customTerminalPalette := MIDNIGHT_ELECTRIC_TERMINAL_PALETTE } := by
    rw [hnormalized]
    refine Schema.strictObject_of ?_ ?_
    · rw [List.all_eq_true]
      intro m hm
      rcases JsMap.mem_set hm with hm | hm
      · exact Schema.listed_append (List.all_eq_true.mp hkeys m hm) _
      · rw [hm]
        exact Schema.listed_of_mem (List.mem_append_right _ List.mem_cons_self)
    · have hpalette : Schema.field (JsMap.set ms (js "customTerminalPalette")
          (paletteJson MIDNIGHT_ELECTRIC_TERMINAL_PALETTE))
          (js "customTerminalPalette") customTerminalPaletteSchema =
          some MIDNIGHT_ELECTRIC_TERMINAL_PALETTE := by
        unfold Schema.field
        rw [JsMap.get_set, if_pos rfl, Option.bind_some]
        exact isPalette_midnight.schema
      exact Schema.bind_of hpalette hread
  unfold parseWorkspaceSettings
  rw [hschema]
  rfl

/-!
## Parsers
-/

theorem deployed_some {s t : WorkspaceSettings} {constraints : Option Json}
    (h : deployed nfc s constraints = some t) : t = s := by
  unfold deployed at h
  split at h
  · cases h
    rfl
  · rcases Option.bind_eq_some_iff.mp h with ⟨parsedConstraints, _, h⟩
    split at h
    · cases h
      rfl
    · cases h

/-- What is left of a value that was parsed. -/
structure Parsed (nfc : JsString -> JsString) (v : Json)
    (constraints : Option Json) (s : WorkspaceSettings) : Prop where
  fields : exists ms, v = Json.obj ms ∧
    FieldsOf nfc FontFamily.all Theme.all ms s
  schema : workspaceSettingsSchema nfc s.json = some s
  rest : normalizeCursorAccent s = s
  deployed : deployed nfc s constraints = some s

theorem parse_some (hnfc : NormalForm nfc) {v : Json}
    {constraints : Option Json} {s : WorkspaceSettings}
    (h : parseWorkspaceSettings nfc v constraints = some s) :
    Parsed nfc v constraints s := by
  rcases Option.bind_eq_some_iff.mp h with ⟨parsed, hparsed, hdeployed⟩
  have heq := deployed_some hdeployed
  rcases normalizeLegacyPalette_fields hparsed with ⟨ms, hv, hfields⟩
  rcases workspaceSettings_some hparsed with ⟨_, _, _, hpalette⟩
  have hkept := normalizeCursorAccent_fields hfields
  rw [← heq] at hdeployed
  constructor
  · rw [heq]
    exact ⟨ms, hv, hkept⟩
  · rw [heq]
    exact hkept.schema hnfc (normalizeCursorAccent_palette hpalette)
  · rw [heq]
    exact normalizeCursorAccent_again hpalette
  · exact hdeployed

theorem normalizeLegacyPalette_other {v : Json} (h : isLegacy nfc v = false) :
    normalizeLegacyPalette nfc v = v := by
  cases v with
  | obj ms =>
      change (if _ then _ else _) = _
      rw [h]
      rfl
  | _ => rfl

theorem Parsed.parse {v : Json} {constraints : Option Json}
    {s : WorkspaceSettings} (h : Parsed nfc v constraints s) :
    parseWorkspaceSettings nfc s.json constraints = some s := by
  unfold parseWorkspaceSettings
  rw [normalizeLegacyPalette_other (isLegacy_json s), h.schema]
  change Shared.deployed nfc (normalizeCursorAccent s) constraints = _
  rw [h.rest]
  exact h.deployed

/-- A mutation is parsed as its settings are, but for legacy documents. -/
theorem mutation_parse (v : Json) (constraints : Option Json) :
    parseWorkspaceSettingsMutation nfc (Json.obj [(js "settings", v)])
        constraints =
      if isLegacy nfc v then none
      else parseWorkspaceSettings nfc v constraints := by
  have hbody : Schema.strictObject [js "settings"] (fun ms =>
      Schema.field ms (js "settings") (workspaceSettingsSchema nfc))
      (Json.obj [(js "settings", v)]) = workspaceSettingsSchema nfc v := rfl
  unfold parseWorkspaceSettingsMutation
  rw [hbody]
  split
  · rename_i hlegacy
    rw [legacy_refused hlegacy]
    rfl
  · rename_i hlegacy
    unfold parseWorkspaceSettings
    rw [normalizeLegacyPalette_other (Bool.eq_false_iff.mpr hlegacy)]

end Agreement

end Shared
end FlanTerminal
