import Bms.Model.Op

/-! # Service scalers

`scheduler/src/service_scaler`. The registry holds the Docker scaler in local mode and the Fargate
scaler otherwise. Both scalers read the current count and then request a new one; nothing keeps the
count from changing in between.
-/

namespace Bms

open Process Fallible

inductive ServiceScalerError
  | commandError (message : String)
  | genericError (message : String)
  | invalidService (message : String)
deriving DecidableEq

def ServiceScalerError.toStr : ServiceScalerError → String
  | .commandError message => s!"ServiceScalerError::CommandError: {message}"
  | .genericError message => s!"ServiceScalerError::GenericError: {message}"
  | .invalidService message => s!"ServiceScalerError::InvalidService: {message}"

/-- The text that a debug format gives. -/
def ServiceScalerError.debug : ServiceScalerError → String
  | .commandError message => s!"CommandError({message.quote})"
  | .genericError message => s!"GenericError({message.quote})"
  | .invalidService message => s!"InvalidService({message.quote})"

structure ServiceScalerInfo where
  name : String
  instances : ℕ
  providerType : ProviderType
  desiredCount : Option ℤ
  runningCount : Option ℤ
  pendingCount : Option ℤ

namespace ServiceScalerInfo

def docker (name : String) (instances : ℕ) : ServiceScalerInfo := ⟨name, instances, .dockerLocal, none, none, none⟩

def fargate (name : String) (instances : ℕ) (desiredCount runningCount pendingCount : ℤ) : ServiceScalerInfo :=
  ⟨name, instances, .awsFargate, some desiredCount, some runningCount, some pendingCount⟩

end ServiceScalerInfo

namespace DockerScaler

def getInstanceCount (service : Service) : Fallible Calls ServiceScalerError ℕ :=
  attempt (.dockerPs service) (Except.mapError .commandError)

def scaleService (service : Service) (count : ℕ) : Fallible Calls ServiceScalerError Unit :=
  attempt (.dockerComposeUp service count) (Except.mapError .commandError)

def scaleUp (service : Service) (amount : ℤ) : Fallible Calls ServiceScalerError Unit := do
  let currentCount ← getInstanceCount service
  let newCount := wrapU64 (currentCount + if 0 ≤ amount then amount.toNat else 0)
  if currentCount = newCount then pure () else scaleService service newCount

def scaleDown (service : Service) (amount : ℤ) : Fallible Calls ServiceScalerError Unit := do
  let currentCount ← getInstanceCount service
  let newCount := currentCount - if 0 ≤ amount then amount.toNat else 2 ^ 64 - 1
  if currentCount = newCount then pure () else scaleService service newCount

def getInfo (service : Service) : Fallible Calls ServiceScalerError ServiceScalerInfo := do
  let instances ← getInstanceCount service
  return .docker service.name instances

end DockerScaler

namespace FargateScaler

/-- The region and the cluster of a service's details. -/
def regionAndCluster (service : Service) : Except ServiceScalerError (String × String) :=
  match (service.details.index "region").asStr? with
  | none => .error (.invalidService "Region not found")
  | some region =>
    match (service.details.index "cluster").asStr? with
    | none => .error (.invalidService "Cluster not found")
    | some cluster => .ok (region, cluster)

def getServiceInfo (service : Service) : Fallible Calls ServiceScalerError ServiceScalerInfo := do
  let (region, cluster) ← outcome (regionAndCluster service)
  let awsService ← attempt (.describeServices service region cluster) fun
    | .error e => .error (.genericError s!"DescribeServices failed: {e}")
    | .ok none => .error (.genericError "Service not found")
    | .ok (some awsService) => .ok awsService
  return .fargate service.name (castU64 awsService.runningCount) awsService.desiredCount awsService.runningCount
    awsService.pendingCount

def updateService (service : Service) (desiredCount : ℤ) : Fallible Calls ServiceScalerError Unit := do
  let (region, cluster) ← outcome (regionAndCluster service)
  attempt (.updateService service region cluster desiredCount) fun
    | .error e => .error (.genericError s!"UpdateService failed: {e}")
    | .ok false => .error (.genericError "Service not found")
    | .ok true => .ok ()

def scaleUp (service : Service) (amount : ℤ) : Fallible Calls ServiceScalerError Unit := do
  let serviceInfo ← getServiceInfo service
  let newCount := wrapI32 ((← unwrap serviceInfo.desiredCount) + amount)
  if serviceInfo.desiredCount.getD 0 = newCount then pure () else updateService service newCount

def scaleDown (service : Service) (amount : ℤ) : Fallible Calls ServiceScalerError Unit := do
  let serviceInfo ← getServiceInfo service
  let newCount := max (saturatingSubI32 (← unwrap serviceInfo.desiredCount) amount) 0
  if serviceInfo.desiredCount.getD 0 = newCount then pure () else updateService service newCount

end FargateScaler

inductive ServiceScaler
  | docker
  | fargate
deriving DecidableEq

namespace ServiceScaler

def scaleUp : ServiceScaler → Service → ℤ → Fallible Calls ServiceScalerError Unit
  | docker => DockerScaler.scaleUp
  | fargate => FargateScaler.scaleUp

def scaleDown : ServiceScaler → Service → ℤ → Fallible Calls ServiceScalerError Unit
  | docker => DockerScaler.scaleDown
  | fargate => FargateScaler.scaleDown

def getInfo : ServiceScaler → Service → Fallible Calls ServiceScalerError ServiceScalerInfo
  | docker => DockerScaler.getInfo
  | fargate => FargateScaler.getServiceInfo

end ServiceScaler

structure ServiceScalerRegistry where
  localMode : Bool

/-- The Docker scaler is only available in local mode, and is then the only one. -/
def ServiceScalerRegistry.getScaler (registry : ServiceScalerRegistry) : ProviderType → Option ServiceScaler
  | .dockerLocal => if registry.localMode then some .docker else none
  | .awsFargate => if registry.localMode then none else some .fargate

end Bms
