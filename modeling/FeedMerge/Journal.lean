/-!
# Journals

While operations run they leave log lines and metrics. A journal holds both in order.
-/

namespace FeedMerge

inductive Level where
  | debug
  | info
  | error
  deriving DecidableEq, Repr

def Level.name : Level → String
  | debug => "DEBUG"
  | info => "INFO"
  | error => "ERROR"

structure LogLine where
  level : Level
  text : String
  deriving DecidableEq, Repr

/-- What is counted, and that the time of an operation was taken. -/
inductive Metric where
  | recordsProjected (count : Nat)
  | groupsAggregated (count : Nat)
  | operationError
  | operationTime
  deriving DecidableEq, Repr

def Metric.name : Metric → String
  | recordsProjected _ => "merge.records_projected"
  | groupsAggregated _ => "merge.groups_aggregated"
  | operationError => "merge.operation_errors"
  | operationTime => "merge.operation_seconds"

/-- The number that a metric adds; a time is none. -/
def Metric.count? : Metric → Option Nat
  | recordsProjected count => some count
  | groupsAggregated count => some count
  | operationError => some 1
  | operationTime => none

structure Journal where
  logs : List LogLine := []
  metrics : List Metric := []
  deriving DecidableEq, Repr

namespace Journal

def empty : Journal := {}

def log (level : Level) (text : String) : Journal := { logs := [⟨level, text⟩] }

def metric (m : Metric) : Journal := { metrics := [m] }

/-- One journal continued by another. -/
def append (a b : Journal) : Journal := ⟨a.logs ++ b.logs, a.metrics ++ b.metrics⟩

instance : Append Journal := ⟨append⟩

theorem metrics_append (a b : Journal) : (a ++ b).metrics = a.metrics ++ b.metrics := rfl

end Journal

end FeedMerge
