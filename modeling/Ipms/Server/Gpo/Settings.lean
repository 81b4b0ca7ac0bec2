import Ipms.Server.Gpo.Exchange

/-
  Ipms.Server.Gpo.Settings

  The settings of a domain: the names its template renders and the checks a
  settings document passes before it is stored.  What the portal knows besides
  the compiled content stands in a `Catalogue`.
-/

namespace Ipms.Server.Gpo

open Ipms.Lib Ipms.ManagementJson

/-- The compiled content with the baselines that have packages. -/
structure Catalogue extends Content where
  /-- the profiles of `DEPLOYABLE_BY_ID` -/
  deployable : String → Option (List String)
  /-- the keys of `DEPLOYABLE_BY_ID` -/
  deployableIds : List String
  /-- a character of class `\w` -/
  word : Char → Bool

/-! ## Names -/

/-- An ASCII letter or digit. -/
def nameStart (c : Char) : Bool := alphanumeric c

/-- A character of a rendered name. -/
def nameChar (c : Char) : Bool := alphanumeric c || c == ' ' || c == '.' || c == '_' || c == '-'

/-- A character of a target alias or a purpose. -/
def aliasChar (c : Char) : Bool := alphanumeric c || c == '_' || c == '-'

/-- A letter or digit and up to `more` further characters. -/
def startsName (char : Char → Bool) (more : Nat) : List Char → Bool
  | [] => false
  | c :: rest => nameStart c && rest.all char && decide (rest.length ≤ more)

/-- One part of a policy version: one to four characters of class `\d`. -/
def policyVersionPart (unicode : Unicode) (part : List Char) : Bool :=
  !part.isEmpty && decide (part.length ≤ 4) && part.all fun c => (unicode.decimal c).isSome

/-- A three-part policy version. -/
def policyVersion (unicode : Unicode) (version : String) : Bool :=
  let parts := version.toList.splitOn '.'
  parts.length == 3 && parts.all (policyVersionPart unicode)

def defaultGpoNames : List String := ["default domain policy", "default domain controllers policy"]

/-- `render_name`; nothing where the code raises. -/
def renderName (unicode : Unicode) (template tier scope target purpose version : String)
    (pilotSuffix : Option String := none) : Option String := do
  if ¬(tier = "0" ∨ tier = "1" ∨ tier = "2") ∨ ¬(scope = "C" ∨ scope = "U") then none
  else if startsName aliasChar 31 target.toList = false ∨ policyVersion unicode version = false ∨
      startsName aliasChar 79 purpose.toList = false then none
  else do
    let purpose := match pilotSuffix with
      | some suffix => purpose ++ "-Pilot-" ++ suffix
      | none => purpose
    let name ← formatTemplate (nameToken tier scope target purpose version)
      template.toList.length template.toList
    if name.length > 240 ∨ strip name ≠ name ∨ startsName nameChar 239 name = false ∨
        defaultGpoNames.contains (unicode.casefold (String.ofList name)) = true then none
    else some (String.ofList name)

def tokens : List String := ["tier", "scope", "target", "purpose", "version"]

/-- The fields of a template whose literal text is plain; nothing where the code raises.  A
doubled brace is literal text, which no name may hold. -/
def templateFields : Nat → List Char → Option (List String)
  | _, [] => some []
  | 0, _ => none
  | fuel + 1, c :: rest =>
    if c = '{' then do
      let field := rest.takeWhile (· ≠ '}')
      let field := if field.getLast? = some ':' then field.dropLast else field
      if (rest.dropWhile (· ≠ '}')).isEmpty then none
      else do
        let fields ← templateFields fuel ((rest.dropWhile (· ≠ '}')).drop 1)
        pure (String.ofList field :: fields)
    else if nameChar c then templateFields fuel rest
    else none

/-- `validate_template`. -/
def validTemplate (unicode : Unicode) (template : String) : Bool :=
  decide (1 ≤ template.toList.length) && decide (template.toList.length ≤ 160) &&
    (match templateFields template.toList.length template.toList with
     | none => false
     | some fields => fields.length == tokens.length && tokens.all fields.contains) &&
    ["0", "1", "2"].all fun tier =>
      (renderName unicode template tier "C" "ALL" "Baseline" "1.0.0" (some "00000000")).isSome

/-! ## Settings documents -/

/-- The fields of a settings document. -/
structure SettingsDocument where
  domainName : String
  tierOus : TierOus
  gpoNameTemplate : String
  baselineOrder : List String
  deriving DecidableEq

/-- The document of stored settings. -/
def DomainSecuritySettings.document (config : DomainSecuritySettings) : SettingsDocument :=
  { domainName := config.domainName, tierOus := config.tierOus
    gpoNameTemplate := config.gpoNameTemplate, baselineOrder := config.baselineOrder }

/-- A simple name, which stands for an immediate child of the domain. -/
def simpleName (c : Catalogue) (value : String) : Bool :=
  match value.toList with
  | [] => false
  | first :: rest => c.word first && decide (rest.length ≤ 63) &&
      rest.all fun d => c.word d || d == ' ' || d == '.' || d == '-'

/-- The distinguished name a value of a tier stands for. -/
def targetDn (c : Catalogue) (domain value : String) : String :=
  if simpleName c value then
    "OU=" ++ String.ofList (strip value.toList) ++ "," ++ domainRoot domain
  else value

/-- Two targets of which one lies in the other. -/
def overlap (left right : List (Attribute × String)) : Bool :=
  right.isSuffixOf left || left.isSuffixOf right

/-- Two targets that may not both be configured. -/
def targetsClash (labels : Nat) (left right : Int × List (Attribute × String)) : Bool :=
  left.2 == right.2 || left.1 != right.1 && overlap left.2 right.2 &&
    !(left.2.length == labels || right.2.length == labels)

/-- The targets of one tier: those before it, and its own cleaned names. -/
def tierTargets (c : Catalogue) (domain : String) (tier : Int) :
    List String → List (Int × List (Attribute × String)) →
      Except ServerError (List String × List (Int × List (Attribute × String)))
  | [], seen => pure ([], seen)
  | value :: rest, seen => do
    let dn := targetDn c domain value
    match ouIdentity c.unicode dn domain (tier == 0) with
    | none => throw (.publicApiError s!"security_domain_tier_{tier}_ou_invalid" 400)
    | some identity => do
      throwIf (seen.any (targetsClash (domain.toList.splitOn '.').length (tier, identity)) = true)
        (.publicApiError "security_domain_ou_overlap" 400)
      let (cleaned, all) ← tierTargets c domain tier rest (seen ++ [(tier, identity)])
      pure (String.ofList (strip dn.toList) :: cleaned, all)

/-- The targets of one tier, of which there are at most 32. -/
def checkTier (c : Catalogue) (domain : String) (tier : Int) (values : List String)
    (seen : List (Int × List (Attribute × String))) :
    Except ServerError (List String × List (Int × List (Attribute × String))) := do
  throwIf (values.length > 32) (.publicApiError s!"security_domain_tier_{tier}_ou_invalid" 400)
  tierTargets c domain tier values seen

def validateSettings (c : Catalogue) (data : SettingsDocument) : Except ServerError SettingsDocument := do
  match domainName c.unicode data.domainName with
  | none => throw (.publicApiError "security_domain_name_invalid" 400)
  | some name => do
    let (zero, seen) ← checkTier c name 0 data.tierOus.zero []
    let (one, seen) ← checkTier c name 1 data.tierOus.one seen
    let (two, _) ← checkTier c name 2 data.tierOus.two seen
    throwIf (data.baselineOrder.length ≠ c.deployableIds.length ∨
      ¬(data.baselineOrder.all c.deployableIds.contains &&
        c.deployableIds.all data.baselineOrder.contains))
      (.publicApiError "security_domain_order_invalid" 400)
    throwIf (validTemplate c.unicode data.gpoNameTemplate = false)
      (.publicApiError "security_domain_template_invalid" 400)
    pure { domainName := name, tierOus := ⟨zero, one, two⟩
           gpoNameTemplate := data.gpoNameTemplate, baselineOrder := data.baselineOrder }

end Ipms.Server.Gpo
