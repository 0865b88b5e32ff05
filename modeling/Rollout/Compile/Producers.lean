import Rollout.Chart
import Rollout.Deployer
import Rollout.Text.Quoted

/-!
# Producers

The tables that say what a builder produces and how a deployer releases. A tool is looked up by
its name exactly as the spec gives it.
-/

namespace Rollout

/-- What a builder makes of a project. -/
inductive ArtifactProducer where
  /-- A container image with a target that follows from the project. -/
  | image
  /-- A bundle of files, never an image. -/
  | bundle
  /-- A container image with this target. -/
  | fixed (target : String)
deriving DecidableEq, Repr

/-- How a deployer releases a project. -/
inductive ReleaseProducer where
  | charts (table : ChartTable)
  | setup (deployer : Deployer)
deriving Repr

/-- The builders and the deployers that are known. -/
structure Producers where
  builders : Dict ArtifactProducer
  deployers : Dict ReleaseProducer
deriving Repr

namespace Producers

def empty : Producers := ⟨[], []⟩

def imageBuilders : List String := ["bazel", "ko"]

def bundleBuilders : List String := ["vite", "angular", "static"]

def withBuilder (ps : Producers) (name : String) (producer : ArtifactProducer) : Producers :=
  { ps with builders := ps.builders.insert name producer }

def withDeployer (ps : Producers) (name : String) (producer : ReleaseProducer) : Producers :=
  { ps with deployers := ps.deployers.insert name producer }

/-- How a deployer releases unless said otherwise. -/
def releaseProducerOf (table : ChartTable) (d : Deployer) : ReleaseProducer :=
  if d.isChartBased then .charts table else .setup d

/-- The builders and deployers that come with the program. -/
def builtin (table : ChartTable) : Producers :=
  { builders := Dict.ofEntries
      (imageBuilders.map (·, .image) ++ bundleBuilders.map (·, .bundle))
    deployers := Dict.ofEntries
      (Deployer.all.map fun d => (d.id, releaseProducerOf table d)) }

/-- A description for people: the names of both tables. -/
def describe (ps : Producers) : String :=
  "ProducerRegistry \x7b builders: " ++ Text.quotedList ps.builders.keys ++ ", deployers: " ++
    Text.quotedList ps.deployers.keys ++ " \x7d"

end Producers
end Rollout
