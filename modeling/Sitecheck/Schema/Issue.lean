import Sitecheck.Json.Display
import Sitecheck.Text.Basic

/-!
# Issues found in data

An issue is a cause at a place.  A report lists all issues found in one piece
of data, each place on a line of its own with the cause below it.
-/

namespace Sitecheck.Schema

inductive Step where
  | key (name : String)
  | index (position : Nat)
  deriving DecidableEq

def Step.text : Step → String
  | .key name => name
  | .index position => toString position

def Step.toJson : Step → Json
  | .key name => .str name
  | .index position => .ofNat position

inductive Cause where
  | missing
  | nullValue
  | notText
  | notInteger
  | notNumber
  | notTruth
  | notList
  | notTable
  | notNamed
  | reserved
  | unknownField
  | notMember (permitted : List String)
  | tooShort (limit : Nat)
  | tooLong (limit : Nat)
  | schemeMissing
  | schemeRefused
  | portTooLarge
  | hostInvalid
  | domainNeeded
  | leftOver (text : String)
  | hostEncoding (message : String)
  deriving DecidableEq

namespace Cause

def message : Cause → String
  | .missing => "field required"
  | .nullValue => "none is not an allowed value"
  | .notText => "str type expected"
  | .notInteger => "value is not a valid integer"
  | .notNumber => "value is not a valid float"
  | .notTruth => "value could not be parsed to a boolean"
  | .notList => "value is not a valid list"
  | .notTable => "value is not a valid dict"
  | .notNamed => "keywords must be strings"
  | .reserved => "BaseModel.__init__() got multiple values for argument '__pydantic_self__'"
  | .unknownField => "extra fields not permitted"
  | .notMember permitted =>
    "value is not a valid enumeration member; permitted: " ++
      Text.join ", " (permitted.map Text.quoted)
  | .tooShort limit => "ensure this value has at least " ++ toString limit ++ " characters"
  | .tooLong limit => "ensure this value has at most " ++ toString limit ++ " characters"
  | .schemeMissing => "invalid or missing URL scheme"
  | .schemeRefused => "URL scheme not permitted"
  | .portTooLarge => "URL port invalid, port cannot exceed 65535"
  | .hostInvalid => "URL host invalid"
  | .domainNeeded => "URL host invalid, top level domain required"
  | .leftOver text => "URL invalid, extra characters found after valid URL: " ++ Text.quoted text
  | .hostEncoding message => message

def kind : Cause → String
  | .missing => "value_error.missing"
  | .nullValue => "type_error.none.not_allowed"
  | .notText => "type_error.str"
  | .notInteger => "type_error.integer"
  | .notNumber => "type_error.float"
  | .notTruth => "type_error.bool"
  | .notList => "type_error.list"
  | .notTable => "type_error.dict"
  | .notNamed => "type_error"
  | .reserved => "type_error"
  | .unknownField => "value_error.extra"
  | .notMember _ => "type_error.enum"
  | .tooShort _ => "value_error.any_str.min_length"
  | .tooLong _ => "value_error.any_str.max_length"
  | .schemeMissing => "value_error.url.scheme"
  | .schemeRefused => "value_error.url.scheme"
  | .portTooLarge => "value_error.url.port"
  | .hostInvalid => "value_error.url.host"
  | .domainNeeded => "value_error.url.host"
  | .leftOver _ => "value_error.url.extra"
  | .hostEncoding _ => "value_error.unicode"

def detail : Cause → String
  | .tooShort limit | .tooLong limit => "; limit_value=" ++ toString limit
  | .leftOver text => "; extra=" ++ text
  | _ => ""

end Cause

structure Issue where
  place : List Step
  cause : Cause
  deriving DecidableEq

namespace Issue

def under (step : Step) (issue : Issue) : Issue := { issue with place := step :: issue.place }

def text (issue : Issue) : String :=
  Text.join " -> " (issue.place.map Step.text) ++ "\n  " ++ issue.cause.message ++
    " (type=" ++ issue.cause.kind ++ issue.cause.detail ++ ")"

def toJson (issue : Issue) : Json :=
  .obj [("loc", .arr (issue.place.map Step.toJson)), ("msg", .str issue.cause.message),
    ("type", .str issue.cause.kind)]

end Issue

structure Report where
  subject : String
  issues : List Issue
  deriving DecidableEq

def Report.text (report : Report) : String :=
  toString report.issues.length ++
    (if report.issues.length = 1 then " validation error for " else " validation errors for ") ++
    report.subject ++ "\n" ++ Text.join "\n" (report.issues.map Issue.text)

end Sitecheck.Schema
