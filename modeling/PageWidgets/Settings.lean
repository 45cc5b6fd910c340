import PageWidgets.Json.Reader
import PageWidgets.Json.Printed
import PageWidgets.Text.Blank

/-! Settings: the attributes, classes and ids by which the widgets find their parts of a page, and how long a
    choice is kept. Every field has a default, a settings document may leave out any of them, and a document is
    accepted when no marker is blank and the cookie lives at least a day. -/

namespace PageWidgets

/-- How the consent overlay finds its parts, and how long a choice is kept. -/
structure ConsentSettings where
  overlayId : String := "cookieConsent"
  cookieName : String := "fsqr_cookie_consent"
  durationDays : Nat := 365
  actionAttr : String := "data-cookie-consent"
  categoryAttr : String := "data-cookie-category"
  focusAttr : String := "data-cookie-consent-focus"
  viewAttr : String := "data-cookie-consent-view"
  activeViewAttr : String := "data-active-view"
  visibleClass : String := "is-visible"
  teardownFallbackMs : Nat := 400
  deriving DecidableEq, Repr

/-- How the retention select finds its parts, and what it marks them with. -/
structure SelectSettings where
  wrapperAttr : String := "data-retention-select"
  enhancedAttr : String := "data-retention-enhanced"
  enhancedClass : String := "is-enhanced"
  openClass : String := "is-open"
  activeClass : String := "is-active"
  selectedClass : String := "is-selected"
  triggerClass : String := "retention-select-trigger"
  menuClass : String := "retention-select-menu"
  optionClass : String := "retention-select-option"
  arrowClass : String := "retention-select-arrow"
  fallbackId : String := "retention"
  deriving DecidableEq, Repr

/-- The settings of both widgets. -/
structure Settings where
  consent : ConsentSettings := {}
  select : SelectSettings := {}
  deriving DecidableEq, Repr

instance : Inhabited ConsentSettings := ⟨{}⟩
instance : Inhabited SelectSettings := ⟨{}⟩
instance : Inhabited Settings := ⟨{}⟩

/-! ### Selectors -/

namespace ConsentSettings

/-- Selects the controls of an action. -/
def actionSelector (s : ConsentSettings) (action : String) : String :=
  "[" ++ s.actionAttr ++ "=\"" ++ action ++ "\"]"

/-- Selects the toggles of the categories. -/
def categorySelector (s : ConsentSettings) : String := "input[" ++ s.categoryAttr ++ "]"

/-- Selects what a view may focus. -/
def focusSelector (s : ConsentSettings) : String := "[" ++ s.focusAttr ++ "]"

/-- Selects the views. -/
def viewSelector (s : ConsentSettings) : String := "[" ++ s.viewAttr ++ "]"

/-- The markers that must not be blank, in the order they are checked. -/
def markers (s : ConsentSettings) : List (String × String) :=
  [("overlay_id", s.overlayId), ("cookie_name", s.cookieName), ("action_attr", s.actionAttr),
   ("category_attr", s.categoryAttr), ("focus_attr", s.focusAttr), ("view_attr", s.viewAttr),
   ("active_view_attr", s.activeViewAttr), ("visible_class", s.visibleClass)]

end ConsentSettings

namespace SelectSettings

/-- Selects the wrappers. -/
def wrapperSelector (s : SelectSettings) : String := "[" ++ s.wrapperAttr ++ "]"

/-- Selects the arrow of a wrapper. -/
def arrowSelector (s : SelectSettings) : String := "." ++ s.arrowClass

/-- The markers that must not be blank, in the order they are checked. -/
def markers (s : SelectSettings) : List (String × String) :=
  [("wrapper_attr", s.wrapperAttr), ("enhanced_attr", s.enhancedAttr), ("enhanced_class", s.enhancedClass),
   ("open_class", s.openClass), ("active_class", s.activeClass), ("selected_class", s.selectedClass),
   ("trigger_class", s.triggerClass), ("menu_class", s.menuClass), ("option_class", s.optionClass),
   ("arrow_class", s.arrowClass), ("fallback_id", s.fallbackId)]

end SelectSettings

/-! ### Faults -/

/-- A cause for refusing a settings document. -/
inductive SettingsFault where
  | emptyMarker (section_ field : String)
  | zeroDuration
  | json (e : Json.ReadError)
  deriving DecidableEq, Repr

namespace SettingsFault

def message : SettingsFault → String
  | .emptyMarker section_ field => section_ ++ "." ++ field ++ " must not be empty"
  | .zeroDuration => "consent.duration_days must be at least 1 (got 0)"
  | .json e => "JSON parsing error: " ++ e.message

end SettingsFault

namespace Settings

/-- The first blank marker of a section. -/
def blankMarker? (markers : List (String × String)) : Option String :=
  (markers.find? fun m => Text.isBlankText m.2).map (·.1)

/-- Refuses the first blank marker, the consent markers before the select markers, and then a lifetime of no
    days. -/
def validate (s : Settings) : Except SettingsFault Unit :=
  match blankMarker? s.consent.markers with
  | some field => .error (.emptyMarker "consent" field)
  | none =>
    match blankMarker? s.select.markers with
    | some field => .error (.emptyMarker "select" field)
    | none => if s.consent.durationDays = 0 then .error .zeroDuration else .ok ()

end Settings

/-! ### Reading -/

open Json in
/-- A field of text that may be left out anywhere. -/
def textSlot {α : Type} (name : String) (set : String → α → α) : Slot α :=
  ⟨name, Reader.string.map set, true, true⟩

open Json in
/-- A field with a number below `2 ^ 32` that may be left out anywhere. -/
def countSlot {α : Type} (name : String) (set : Nat → α → α) : Slot α :=
  ⟨name, (Reader.natural "u32" (Nat.pow 2 32 - 1)).map set, true, true⟩

namespace ConsentSettings

/-- The fields in order. -/
def shape : Json.Shape ConsentSettings where
  title := "struct ConsentConfig"
  blank := {}
  slots :=
    [textSlot "overlay_id" fun v s => { s with overlayId := v },
     textSlot "cookie_name" fun v s => { s with cookieName := v },
     countSlot "duration_days" fun v s => { s with durationDays := v },
     textSlot "action_attr" fun v s => { s with actionAttr := v },
     textSlot "category_attr" fun v s => { s with categoryAttr := v },
     textSlot "focus_attr" fun v s => { s with focusAttr := v },
     textSlot "view_attr" fun v s => { s with viewAttr := v },
     textSlot "active_view_attr" fun v s => { s with activeViewAttr := v },
     textSlot "visible_class" fun v s => { s with visibleClass := v },
     countSlot "teardown_fallback_ms" fun v s => { s with teardownFallbackMs := v }]

/-- The JSON value of the settings. -/
def toValue (s : ConsentSettings) : Json.Value :=
  .object
    [("overlay_id", .string s.overlayId), ("cookie_name", .string s.cookieName),
     ("duration_days", .nat s.durationDays), ("action_attr", .string s.actionAttr),
     ("category_attr", .string s.categoryAttr), ("focus_attr", .string s.focusAttr),
     ("view_attr", .string s.viewAttr), ("active_view_attr", .string s.activeViewAttr),
     ("visible_class", .string s.visibleClass), ("teardown_fallback_ms", .nat s.teardownFallbackMs)]

end ConsentSettings

namespace SelectSettings

/-- The fields in order. -/
def shape : Json.Shape SelectSettings where
  title := "struct SelectConfig"
  blank := {}
  slots :=
    [textSlot "wrapper_attr" fun v s => { s with wrapperAttr := v },
     textSlot "enhanced_attr" fun v s => { s with enhancedAttr := v },
     textSlot "enhanced_class" fun v s => { s with enhancedClass := v },
     textSlot "open_class" fun v s => { s with openClass := v },
     textSlot "active_class" fun v s => { s with activeClass := v },
     textSlot "selected_class" fun v s => { s with selectedClass := v },
     textSlot "trigger_class" fun v s => { s with triggerClass := v },
     textSlot "menu_class" fun v s => { s with menuClass := v },
     textSlot "option_class" fun v s => { s with optionClass := v },
     textSlot "arrow_class" fun v s => { s with arrowClass := v },
     textSlot "fallback_id" fun v s => { s with fallbackId := v }]

/-- The JSON value of the settings. -/
def toValue (s : SelectSettings) : Json.Value :=
  .object
    [("wrapper_attr", .string s.wrapperAttr), ("enhanced_attr", .string s.enhancedAttr),
     ("enhanced_class", .string s.enhancedClass), ("open_class", .string s.openClass),
     ("active_class", .string s.activeClass), ("selected_class", .string s.selectedClass),
     ("trigger_class", .string s.triggerClass), ("menu_class", .string s.menuClass),
     ("option_class", .string s.optionClass), ("arrow_class", .string s.arrowClass),
     ("fallback_id", .string s.fallbackId)]

end SelectSettings

namespace Settings

/-- The two sections, either of which may be left out. -/
def shape : Json.Shape Settings where
  title := "struct WidgetsConfig"
  blank := {}
  slots :=
    [⟨"consent", ConsentSettings.shape.reader.map fun v s => { s with consent := v }, true, true⟩,
     ⟨"select", SelectSettings.shape.reader.map fun v s => { s with select := v }, true, true⟩]

/-- The JSON value of the settings. -/
def toValue (s : Settings) : Json.Value :=
  .object [("consent", s.consent.toValue), ("select", s.select.toValue)]

/-- Reads a settings document and validates it. -/
def ofJson (text : String) : Except SettingsFault Settings :=
  match shape.reader.parse text with
  | .error e => .error (.json e)
  | .ok s =>
    match s.validate with
    | .error fault => .error fault
    | .ok () => .ok s

end Settings
end PageWidgets
