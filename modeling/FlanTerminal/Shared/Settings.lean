import FlanTerminal.Foundation.Schema
import FlanTerminal.Shared.SafeString

/-!
# Workspace settings

The schemas of the shared package for settings, and its three parsers: for
stored settings, for a mutation that a client sends, and for the response of
the server.  Stored settings of the first release have no palette; they are
brought up to date before the schema sees them.

A refusal is `none`.
-/

namespace FlanTerminal
namespace Shared

open Foundation

inductive FontFamily where
  | jetbrainsMonoNerd
  | systemMonospace
  | dejavuSansMono
  | notoSansMono
  | liberationMono
  | courier
  deriving DecidableEq, Repr

inductive Theme where
  | dark
  | light
  | ubuntu
  | midnightElectric
  | auroraNight
  | carbonViolet
  | custom
  deriving DecidableEq, Repr

inductive CursorStyle where
  | block
  | underline
  | bar
  deriving DecidableEq, Repr

inductive BellBehavior where
  | none
  | visual
  | sound
  deriving DecidableEq, Repr

inductive ReconnectBehavior where
  | automatic
  | manual
  deriving DecidableEq, Repr

inductive WorkspaceShortcutMode where
  | default
  | disabled
  deriving DecidableEq, Repr

def FontFamily.text : FontFamily -> JsString
  | jetbrainsMonoNerd => js "jetbrains-mono-nerd"
  | systemMonospace => js "system-monospace"
  | dejavuSansMono => js "dejavu-sans-mono"
  | notoSansMono => js "noto-sans-mono"
  | liberationMono => js "liberation-mono"
  | courier => js "courier"

def Theme.text : Theme -> JsString
  | dark => js "dark"
  | light => js "light"
  | ubuntu => js "ubuntu"
  | midnightElectric => js "midnight-electric"
  | auroraNight => js "aurora-night"
  | carbonViolet => js "carbon-violet"
  | custom => js "custom"

def CursorStyle.text : CursorStyle -> JsString
  | block => js "block"
  | underline => js "underline"
  | bar => js "bar"

def BellBehavior.text : BellBehavior -> JsString
  | none => js "none"
  | visual => js "visual"
  | sound => js "sound"

def ReconnectBehavior.text : ReconnectBehavior -> JsString
  | automatic => js "automatic"
  | manual => js "manual"

def WorkspaceShortcutMode.text : WorkspaceShortcutMode -> JsString
  | default => js "default"
  | disabled => js "disabled"

def FontFamily.all : List FontFamily :=
  [jetbrainsMonoNerd, systemMonospace, dejavuSansMono, notoSansMono,
    liberationMono, courier]

def Theme.all : List Theme :=
  [dark, light, ubuntu, midnightElectric, auroraNight, carbonViolet, custom]

def fontFamilySchema : Schema FontFamily :=
  Schema.enumeration FontFamily.all FontFamily.text

def themeSchema : Schema Theme :=
  Schema.enumeration Theme.all Theme.text

def cursorStyleSchema : Schema CursorStyle :=
  Schema.enumeration [CursorStyle.block, CursorStyle.underline,
    CursorStyle.bar] CursorStyle.text

def bellBehaviorSchema : Schema BellBehavior :=
  Schema.enumeration [BellBehavior.none, BellBehavior.visual,
    BellBehavior.sound] BellBehavior.text

def reconnectBehaviorSchema : Schema ReconnectBehavior :=
  Schema.enumeration [ReconnectBehavior.automatic, ReconnectBehavior.manual]
    ReconnectBehavior.text

def workspaceShortcutModeSchema : Schema WorkspaceShortcutMode :=
  Schema.enumeration [WorkspaceShortcutMode.default,
    WorkspaceShortcutMode.disabled] WorkspaceShortcutMode.text

/-!
## Palettes
-/

def terminalPaletteKeys : List JsString :=
  [js "background", js "foreground", js "cursor", js "cursorAccent",
    js "selectionBackground", js "black", js "red", js "green", js "yellow",
    js "blue", js "magenta", js "cyan", js "white", js "brightBlack",
    js "brightRed", js "brightGreen", js "brightYellow", js "brightBlue",
    js "brightMagenta", js "brightCyan", js "brightWhite"]

/-- The colours of a palette, in the order of the keys. -/
abbrev Palette := JsMap JsString JsString

def MIDNIGHT_ELECTRIC_TERMINAL_PALETTE : Palette :=
  [(js "background", js "#101827"), (js "foreground", js "#DCE8FF"),
    (js "cursor", js "#82B1FF"), (js "cursorAccent", js "#101827"),
    (js "selectionBackground", js "#294A82"), (js "black", js "#152238"),
    (js "red", js "#FF7B8B"), (js "green", js "#74D99F"),
    (js "yellow", js "#F6CB6C"), (js "blue", js "#82B1FF"),
    (js "magenta", js "#D8A0FF"), (js "cyan", js "#76D7EA"),
    (js "white", js "#DCE8FF"), (js "brightBlack", js "#4A5D80"),
    (js "brightRed", js "#FF9EAA"), (js "brightGreen", js "#99E9B6"),
    (js "brightYellow", js "#FFDA91"), (js "brightBlue", js "#A8C8FF"),
    (js "brightMagenta", js "#EDB9FF"), (js "brightCyan", js "#A8E8F5"),
    (js "brightWhite", js "#FFFFFF")]

def isColorDigit (u : UInt16) : Bool :=
  (48 ≤ u.toNat && u.toNat ≤ 57) || (65 ≤ u.toNat && u.toNat ≤ 70) ||
    (97 ≤ u.toNat && u.toNat ≤ 102)

/-- A number sign and six hexadecimal digits. -/
def isColor : JsString -> Bool
  | 35 :: digits => digits.length = 6 && digits.all isColorDigit
  | _ => false

def terminalColorSchema : Schema JsString :=
  Schema.string fun s => if isColor s then some s else none

def readPalette (ms : JsMap JsString Json) : Option Palette :=
  terminalPaletteKeys.mapM fun key =>
    (Schema.field ms key terminalColorSchema).map fun color => (key, color)

def customTerminalPaletteSchema : Schema Palette :=
  Schema.strictObject terminalPaletteKeys readPalette

def paletteJson (palette : Palette) : Json :=
  Json.obj (palette.map fun entry => (entry.1, Json.str entry.2))

/-!
## Numbers
-/

def numberValue : JsNumber -> ℚ
  | JsNumber.finite q => q
  | _ => 0

/-- The double that a decimal literal stands for. -/
def literal (q : ℚ) : ℚ :=
  numberValue (roundToDouble q)

/-- `Number.isInteger` of a finite number. -/
def isInteger (n : JsNumber) : Bool :=
  decide ((numberValue n).den = 1)

/-- `Math.round`. -/
def mathRound (q : ℚ) : ℤ :=
  (q + 1 / 2).floor

/-- Infinite differences and quotients end in not-a-number, which is not small.
-/
def isStepAligned (value minimum step : ℚ) : Bool :=
  match roundToDouble (value - minimum) with
  | JsNumber.infinity _ => false
  | difference =>
      match roundToDouble (numberValue difference / step) with
      | JsNumber.infinity _ => false
      | quotient =>
          let steps := numberValue quotient
          decide (|literal (steps - mathRound steps)| <
            literal (1 / 1000000000))

/-- `z.number().int().min(minimum).max(maximum)`. -/
def integerSchema (minimum maximum : Nat) : Schema JsNumber :=
  Schema.number fun n => isInteger n &&
    decide (|numberValue n| ≤ 2 ^ 53 - 1) &&
    decide ((minimum : ℚ) ≤ numberValue n) &&
    decide (numberValue n ≤ (maximum : ℚ))

def steppedNumber (minimum maximum step : ℚ) : Schema JsNumber :=
  Schema.number fun n => decide (minimum ≤ numberValue n) &&
    decide (numberValue n ≤ maximum) &&
    isStepAligned (numberValue n) minimum step

/-- `z.literal(1)`. -/
def versionSchema : Schema JsNumber :=
  Schema.number fun n => decide (numberValue n = 1)

/-!
## Settings
-/

structure WorkspaceSettings where
  version : JsNumber
  fontFamily : FontFamily
  fontSize : JsNumber
  lineHeight : JsNumber
  letterSpacing : JsNumber
  scrollback : JsNumber
  theme : Theme
  cursorStyle : CursorStyle
  cursorBlink : Bool
  bellBehavior : BellBehavior
  reconnectBehavior : ReconnectBehavior
  automaticTabCreation : Bool
  workspaceShortcuts : WorkspaceShortcutMode
  defaultShell : JsString
  tmuxHistoryLimit : JsNumber
  staleSessionCleanupHours : JsNumber
  customTerminalPalette : Palette
  deriving DecidableEq

def settingsKeys : List JsString :=
  [js "version", js "fontFamily", js "fontSize", js "lineHeight",
    js "letterSpacing", js "scrollback", js "theme", js "cursorStyle",
    js "cursorBlink", js "bellBehavior", js "reconnectBehavior",
    js "automaticTabCreation", js "workspaceShortcuts", js "defaultShell",
    js "tmuxHistoryLimit", js "staleSessionCleanupHours"]

def WorkspaceSettings.json (s : WorkspaceSettings) : Json :=
  Json.obj
    [(js "version", Json.num s.version),
      (js "fontFamily", Json.str s.fontFamily.text),
      (js "fontSize", Json.num s.fontSize),
      (js "lineHeight", Json.num s.lineHeight),
      (js "letterSpacing", Json.num s.letterSpacing),
      (js "scrollback", Json.num s.scrollback),
      (js "theme", Json.str s.theme.text),
      (js "cursorStyle", Json.str s.cursorStyle.text),
      (js "cursorBlink", Json.bool s.cursorBlink),
      (js "bellBehavior", Json.str s.bellBehavior.text),
      (js "reconnectBehavior", Json.str s.reconnectBehavior.text),
      (js "automaticTabCreation", Json.bool s.automaticTabCreation),
      (js "workspaceShortcuts", Json.str s.workspaceShortcuts.text),
      (js "defaultShell", Json.str s.defaultShell),
      (js "tmuxHistoryLimit", Json.num s.tmuxHistoryLimit),
      (js "staleSessionCleanupHours", Json.num s.staleSessionCleanupHours),
      (js "customTerminalPalette", paletteJson s.customTerminalPalette)]

section Schemas

variable (nfc : JsString -> JsString)

/-- `safeNormalizedStringSchema` with a limit, and a slash in front. -/
def absoluteShell (value : JsString) : Option JsString :=
  (safeNormalizedString nfc ⟨some 4096, false, false⟩ value).filter
    fun shell => shell.head? = some 47

def absoluteShellSchema : Schema JsString :=
  Schema.string (absoluteShell nfc)

def readSettings (fontFamilies : List FontFamily) (themes : List Theme)
    (ms : JsMap JsString Json) (palette : Palette) :
    Option WorkspaceSettings := do
  let version ← Schema.field ms (js "version") versionSchema
  let fontFamily ← Schema.field ms (js "fontFamily")
    (Schema.enumeration fontFamilies FontFamily.text)
  let fontSize ← Schema.field ms (js "fontSize") (integerSchema 8 32)
  let lineHeight ← Schema.field ms (js "lineHeight")
    (steppedNumber 1 2 (literal (1 / 20)))
  let letterSpacing ← Schema.field ms (js "letterSpacing") (integerSchema 0 4)
  let scrollback ← Schema.field ms (js "scrollback") (integerSchema 0 100000)
  let theme ← Schema.field ms (js "theme") (Schema.enumeration themes Theme.text)
  let cursorStyle ← Schema.field ms (js "cursorStyle") cursorStyleSchema
  let cursorBlink ← Schema.field ms (js "cursorBlink") Schema.boolean
  let bellBehavior ← Schema.field ms (js "bellBehavior") bellBehaviorSchema
  let reconnectBehavior ← Schema.field ms (js "reconnectBehavior")
    reconnectBehaviorSchema
  let automaticTabCreation ← Schema.field ms (js "automaticTabCreation")
    Schema.boolean
  let workspaceShortcuts ← Schema.field ms (js "workspaceShortcuts")
    workspaceShortcutModeSchema
  let defaultShell ← Schema.field ms (js "defaultShell")
    (absoluteShellSchema nfc)
  let tmuxHistoryLimit ← Schema.field ms (js "tmuxHistoryLimit")
    (integerSchema 0 1000000)
  let staleSessionCleanupHours ← Schema.field ms
    (js "staleSessionCleanupHours") (integerSchema 0 8760)
  pure ⟨version, fontFamily, fontSize, lineHeight, letterSpacing, scrollback,
    theme, cursorStyle, cursorBlink, bellBehavior, reconnectBehavior,
    automaticTabCreation, workspaceShortcuts, defaultShell, tmuxHistoryLimit,
    staleSessionCleanupHours, palette⟩

def workspaceSettingsSchema : Schema WorkspaceSettings :=
  Schema.strictObject (settingsKeys ++ [js "customTerminalPalette"]) fun ms =>
    do
      let palette ← Schema.field ms (js "customTerminalPalette")
        customTerminalPaletteSchema
      readSettings nfc FontFamily.all Theme.all ms palette

/-- `legacyWorkspaceSettingsMissingCustomTerminalPaletteSchema`; the palette
that it does not have is empty. -/
def legacySchema : Schema WorkspaceSettings :=
  Schema.strictObject settingsKeys fun ms =>
    readSettings nfc [FontFamily.jetbrainsMonoNerd, FontFamily.systemMonospace]
      [Theme.dark, Theme.light, Theme.ubuntu] ms []

/-- `isLegacyWorkspaceSettingsMissingCustomTerminalPalette`. -/
def isLegacy (value : Json) : Bool :=
  (legacySchema nfc value).isSome

def normalizeLegacyPalette (value : Json) : Json :=
  match value with
  | Json.obj ms =>
      if isLegacy nfc value then
        Json.obj (JsMap.set ms (js "customTerminalPalette")
          (paletteJson MIDNIGHT_ELECTRIC_TERMINAL_PALETTE))
      else value
  | _ => value

def normalizeCursorAccent (settings : WorkspaceSettings) : WorkspaceSettings :=
  if settings.theme ≠ Theme.custom then
    { settings with
      customTerminalPalette := MIDNIGHT_ELECTRIC_TERMINAL_PALETTE }
  else
    { settings with
      customTerminalPalette := settings.customTerminalPalette.set
        (js "cursorAccent")
        ((settings.customTerminalPalette.get (js "background")).getD []) }

/-!
## Constraints
-/

structure NumericSettingLimit where
  min : JsNumber
  max : JsNumber
  step : JsNumber
  deriving DecidableEq

structure WorkspaceSettingsLimits where
  fontFamilies : List FontFamily
  fontSize : NumericSettingLimit
  lineHeight : NumericSettingLimit
  letterSpacing : NumericSettingLimit
  scrollback : NumericSettingLimit
  themes : List Theme
  cursorStyles : List CursorStyle
  bellBehaviors : List BellBehavior
  reconnectBehaviors : List ReconnectBehavior
  workspaceShortcutModes : List WorkspaceShortcutMode
  tmuxHistoryLimit : NumericSettingLimit
  staleSessionCleanupHours : NumericSettingLimit
  deriving DecidableEq

structure WorkspaceSettingsConstraints where
  limits : WorkspaceSettingsLimits
  allowedShells : List JsString
  deriving DecidableEq

def anyNumber : Schema JsNumber :=
  Schema.number fun _ => true

def numericSettingLimitSchema : Schema NumericSettingLimit :=
  Schema.strictObject [js "min", js "max", js "step"] fun ms => do
    let min ← Schema.field ms (js "min") anyNumber
    let max ← Schema.field ms (js "max") anyNumber
    let step ← Schema.field ms (js "step")
      (Schema.number fun n => decide (0 < numberValue n))
    if numberValue min ≤ numberValue max then some ⟨min, max, step⟩ else none

def uniqueOptions {value : Type} [DecidableEq value] (schema : Schema value) :
    Schema (List value) :=
  Schema.array schema fun values =>
    decide (1 ≤ values.length) && decide values.Nodup

def isBounded (minimum maximum quantum : ℚ) (integers : Bool)
    (limit : NumericSettingLimit) : Bool :=
  !(decide (numberValue limit.min < minimum) ||
    decide (maximum < numberValue limit.max) ||
    (integers && !List.all [limit.min, limit.max, limit.step] isInteger) ||
    !isStepAligned (numberValue limit.min) minimum quantum ||
    !isStepAligned (numberValue limit.max) minimum quantum ||
    !isStepAligned (numberValue limit.step) 0 quantum)

def boundedLimit (minimum maximum quantum : ℚ) (integers : Bool) :
    Schema NumericSettingLimit := fun v =>
  (numericSettingLimitSchema v).filter
    (isBounded minimum maximum quantum integers)

def workspaceSettingsLimitsSchema : Schema WorkspaceSettingsLimits :=
  Schema.strictObject
    [js "fontFamilies", js "fontSize", js "lineHeight", js "letterSpacing",
      js "scrollback", js "themes", js "cursorStyles", js "bellBehaviors",
      js "reconnectBehaviors", js "workspaceShortcutModes",
      js "tmuxHistoryLimit", js "staleSessionCleanupHours"] fun ms => do
    let fontFamilies ← Schema.field ms (js "fontFamilies")
      (uniqueOptions fontFamilySchema)
    let fontSize ← Schema.field ms (js "fontSize") (boundedLimit 8 32 1 true)
    let lineHeight ← Schema.field ms (js "lineHeight")
      (boundedLimit 1 2 (literal (1 / 20)) false)
    let letterSpacing ← Schema.field ms (js "letterSpacing")
      (boundedLimit 0 4 1 true)
    let scrollback ← Schema.field ms (js "scrollback")
      (boundedLimit 0 100000 1 true)
    let themes ← Schema.field ms (js "themes") (uniqueOptions themeSchema)
    let cursorStyles ← Schema.field ms (js "cursorStyles")
      (uniqueOptions cursorStyleSchema)
    let bellBehaviors ← Schema.field ms (js "bellBehaviors")
      (uniqueOptions bellBehaviorSchema)
    let reconnectBehaviors ← Schema.field ms (js "reconnectBehaviors")
      (uniqueOptions reconnectBehaviorSchema)
    let workspaceShortcutModes ← Schema.field ms
      (js "workspaceShortcutModes") (uniqueOptions workspaceShortcutModeSchema)
    let tmuxHistoryLimit ← Schema.field ms (js "tmuxHistoryLimit")
      (boundedLimit 0 1000000 1 true)
    let staleSessionCleanupHours ← Schema.field ms
      (js "staleSessionCleanupHours") (boundedLimit 0 8760 1 true)
    pure ⟨fontFamilies, fontSize, lineHeight, letterSpacing, scrollback, themes,
      cursorStyles, bellBehaviors, reconnectBehaviors, workspaceShortcutModes,
      tmuxHistoryLimit, staleSessionCleanupHours⟩

def workspaceSettingsConstraintsSchema : Schema WorkspaceSettingsConstraints :=
  Schema.strictObject [js "limits", js "allowedShells"] fun ms => do
    let limits ← Schema.field ms (js "limits") workspaceSettingsLimitsSchema
    let allowedShells ← Schema.field ms (js "allowedShells")
      (uniqueOptions (absoluteShellSchema nfc))
    pure ⟨limits, allowedShells⟩

def withinLimit (value : JsNumber) (limit : NumericSettingLimit) : Bool :=
  !(decide (numberValue value < numberValue limit.min) ||
    decide (numberValue limit.max < numberValue value) ||
    !isStepAligned (numberValue value) (numberValue limit.min)
      (numberValue limit.step))

/-- `assertWithinDeployment`. -/
def withinDeployment (settings : WorkspaceSettings)
    (constraints : WorkspaceSettingsConstraints) : Bool :=
  let limits := constraints.limits
  limits.fontFamilies.contains settings.fontFamily &&
    withinLimit settings.fontSize limits.fontSize &&
    withinLimit settings.lineHeight limits.lineHeight &&
    withinLimit settings.letterSpacing limits.letterSpacing &&
    withinLimit settings.scrollback limits.scrollback &&
    limits.themes.contains settings.theme &&
    limits.cursorStyles.contains settings.cursorStyle &&
    limits.bellBehaviors.contains settings.bellBehavior &&
    limits.reconnectBehaviors.contains settings.reconnectBehavior &&
    limits.workspaceShortcutModes.contains settings.workspaceShortcuts &&
    withinLimit settings.tmuxHistoryLimit limits.tmuxHistoryLimit &&
    withinLimit settings.staleSessionCleanupHours
      limits.staleSessionCleanupHours &&
    constraints.allowedShells.contains settings.defaultShell

/-!
## Parsers
-/

def deployed (settings : WorkspaceSettings) :
    Option Json -> Option WorkspaceSettings
  | none => some settings
  | some constraints => do
      let parsedConstraints ←
        workspaceSettingsConstraintsSchema nfc constraints
      if withinDeployment settings parsedConstraints then some settings
      else none

def parseWorkspaceSettings (value : Json) (constraints : Option Json) :
    Option WorkspaceSettings := do
  let parsed ← workspaceSettingsSchema nfc (normalizeLegacyPalette nfc value)
  deployed nfc (normalizeCursorAccent parsed) constraints

def parseWorkspaceSettingsMutation (value : Json) (constraints : Option Json) :
    Option WorkspaceSettings := do
  let parsedMutation ← Schema.strictObject [js "settings"] (fun ms =>
    Schema.field ms (js "settings") (workspaceSettingsSchema nfc)) value
  deployed nfc (normalizeCursorAccent parsedMutation) constraints

structure SettingsResponse where
  settings : WorkspaceSettings
  limits : WorkspaceSettingsLimits
  allowedShells : List JsString
  deriving DecidableEq

def workspaceSettingsResponseSchema : Schema SettingsResponse :=
  Schema.strictObject [js "settings", js "limits", js "allowedShells"]
    fun ms => do
      let settings ← Schema.field ms (js "settings")
        (workspaceSettingsSchema nfc)
      let limits ← Schema.field ms (js "limits") workspaceSettingsLimitsSchema
      let allowedShells ← Schema.field ms (js "allowedShells")
        (uniqueOptions (absoluteShellSchema nfc))
      pure ⟨settings, limits, allowedShells⟩

def parseWorkspaceSettingsResponse (value : Json) : Option SettingsResponse :=
  do
    let parsedResponse ← workspaceSettingsResponseSchema nfc value
    let response : SettingsResponse := { parsedResponse with
      settings := normalizeCursorAccent parsedResponse.settings }
    if withinDeployment response.settings
        ⟨response.limits, response.allowedShells⟩ then some response
    else none

end Schemas

end Shared
end FlanTerminal
