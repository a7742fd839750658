/-!
Log records.
-/
namespace MergeDecoration

inductive LogLevel
  | debug
  | warning
  deriving DecidableEq

def LogLevel.name : LogLevel → String
  | debug => "DEBUG"
  | warning => "WARNING"

structure LogRecord where
  level : LogLevel
  message : String
  deriving DecidableEq

end MergeDecoration
