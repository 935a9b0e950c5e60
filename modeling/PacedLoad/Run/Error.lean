import PacedLoad.Config
import PacedLoad.Handler.Outcome
import PacedLoad.Rows.Basic
import PacedLoad.Stats.Service

/-!
# Why a run failed
-/

namespace PacedLoad

inductive RunError
  | config (e : ConfigError)
  | watermark (e : ServiceError)
  | stats (e : Stats.Error)
  | execution (e : Handler.ExecutionError)
  | decoding (e : Rows.DecodingError)
  /-- An operation came after one with a later start. -/
  | outOfOrder (id : Nat) (scheduledStart previous : Instant)
  /-- An operation failed, or errors were reported. -/
  | aborted (failed : Nat) (errors : String)
  | noThread (name what : String)
deriving DecidableEq, Repr

def RunError.message : RunError → String
  | .config e => e.message
  | .watermark e => Watermark.errorMessage e
  | .stats e => e.message
  | .execution e => e.message
  | .decoding e => e.message
  | .outOfOrder id start previous =>
    s!"Operation {id} scheduled at {start} arrived after one scheduled at {previous}"
  | .aborted failed errors => s!"Run aborted after {failed} failed operation(s):\n" ++ errors
  | .noThread name what => s!"Failed to start {name} thread: {what}"

def statusThread : String := "status-reporter"

open Text

/-- The error with its fields. -/
def ServiceError.fieldText : ServiceError → String
  | .timeout what => withPart "Timeout" (quoted what)
  | .protocol what => withPart "Protocol" (quoted what)
  | .shuttingDown => "ShuttingDown"
  | .reported errors => withPart "Reported" (quoted errors)
  | .channelClosed => "ChannelClosed"

@[inherit_doc ServiceError.fieldText]
def Stats.Error.fieldText : Stats.Error → String
  | .service e => e.fieldText
  | .fold what => withPart "Fold" (quoted what)
  | .file e => withPart "Io" e.fieldText

@[inherit_doc ServiceError.fieldText]
def Handler.ExecutionError.fieldText : Handler.ExecutionError → String
  | .failure id f => withFields "Failure" [("operation_id", toString id),
      ("source", withFields "ExecutionFailure"
        [("message", quoted f.message), ("result_code", toString f.code)])]
  | .interrupted id => withFields "Interrupted" [("operation_id", toString id)]
  | .excessiveDelay id delay =>
    withFields "ExcessiveDelay" [("operation_id", toString id), ("delay", delay.text)]
  | .completionTime id e =>
    withFields "CompletionTime" [("operation_id", toString id), ("source", e.fieldText)]
  | .panicked id m =>
    withFields "Panicked" [("operation_id", toString id), ("message", quoted m)]
  | .shutDown => "ShutDown"
  | .noRuntime what => withPart "Runtime" (FileError.other what).fieldText

@[inherit_doc ServiceError.fieldText]
def Rows.DecodingError.fieldText : Rows.DecodingError → String
  | .noDecoder row key => withFields "NoDecoder" [("row", quotedList row), ("key", quoted key)]
  | .invalidRow row reason =>
    withFields "InvalidRow" [("row", quotedList row), ("reason", quoted reason)]
  | .unreadable text => withPart "Io" (quoted text)

@[inherit_doc ServiceError.fieldText]
def ConfigError.fieldText : ConfigError → String
  | .file path text => withFields "Io" [("path", quoted path), ("error", quoted text)]
  | .parse => "Parse"
  | .invalid what => withPart "Invalid" (quoted what)

@[inherit_doc ServiceError.fieldText]
def RunError.fieldText : RunError → String
  | .config e => withPart "Config" e.fieldText
  | .watermark e => withPart "CompletionTime" e.fieldText
  | .stats e => withPart "Metrics" e.fieldText
  | .execution e => withPart "Execution" e.fieldText
  | .decoding e => withPart "Decoding" e.fieldText
  | .outOfOrder id start previous => withFields "OutOfOrder" [("operation_id", toString id),
      ("scheduled_start", start.text), ("previous", previous.text)]
  | .aborted failed errors =>
    withFields "Aborted" [("failed_operations", toString failed), ("errors", quoted errors)]
  | .noThread name what => withPart "Thread" (quoted name ++ ", " ++ quoted what)

end PacedLoad
