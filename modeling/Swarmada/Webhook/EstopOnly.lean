import Swarmada.Api.Robot

namespace Swarmada.Webhook

open Api

def estopActorAnnotation : String := "swarmada.io/estop-actor"
def estopResumeAnnotation : String := "swarmada.io/estop-resume"
def estopResumeProcessedAnnotation : String := "swarmada.io/estop-resume-processed"
def estopResumeClaimedAnnotation : String := "swarmada.io/estop-resume-claimed"

def stopFinalizer : String := "swarmada.io/estop-in-force"

def estopAnnotationKeys : List String :=
  [ triggerAnnotation, estopActorAnnotation, processedAnnotation, estopResumeAnnotation,
    estopResumeProcessedAnnotation, estopResumeClaimedAnnotation]

def withoutKeys (keys : List String) (annotations : List (String × String)) : List (String × String) :=
  annotations.filter (fun entry => entry.1 ∉ keys)

def withoutStopFinalizer (finalizers : List String) : List String :=
  finalizers.filter (· ≠ stopFinalizer)

def estopAnnotationsChanged (before after : List (String × String)) : Bool :=
  estopAnnotationKeys.any (fun key => before.lookup key ≠ after.lookup key)

end Swarmada.Webhook
