import GoblinKing.Kubernetes.ArtifactCopies
import GoblinKing.Runtime.DockerWorker

/-!
# Diagnostics of Pods

What the Kubernetes runtime reads of the Pods of a Job: whether one of their images cannot be pulled, the
ends of the logs of the containers, and how the worker container has exited. What is kept of it is bounded.
-/

namespace GoblinKing

/-- What is read of the status of a container; the texts are empty where there are none. -/
structure ContainerStatus where
  name : Option String := none
  waitingReason : String := ""
  waitingMessage : String := ""
  exitCode : Option ℤ := none

/-- What is read of a Pod. -/
structure PodStatus where
  name : String := "unknown"
  initContainers : List ContainerStatus := []
  containers : List ContainerStatus := []

/-- What answers about the Pods of a Job. -/
structure PodReader where
  /-- the Pods of a Job, `none` when the list cannot be read -/
  pods : String → Option (List PodStatus)
  /-- the log of a container of a Pod up to a number of bytes, or the text of an exception -/
  log : String → String → ℕ → Except String RedisValue

/-! ### Texts -/

/-- `_bounded_text` -/
def boundedText (value : String) (limit : ℕ) : String :=
  if value.length ≤ limit then
    value
  else
    String.ofList (value.toList.take (limit - 3)) ++ "..."

/-- The words of a text with one blank between them. -/
def joinedWords (value : String) : String :=
  " ".intercalate (((value.toList.splitOnP (fun c => whitespace.contains c)).filter (· ≠ [])).map
    String.ofList)

/-- `_bounded_message` -/
def boundedMessage (value : String) : String :=
  boundedText (joinedWords value) 400

/-! ### Images -/

/-- `_IMAGE_PULL_FAILURE_REASONS` -/
def imagePullFailureReasons : List String :=
  ["ErrImageNeverPull", "ErrImagePull", "ImagePullBackOff", "InvalidImageName", "RegistryUnavailable"]

/-- A container of a Pod whose image cannot be pulled. -/
structure ContainerStartFailure where
  podName : String
  containerName : String
  reason : String
  message : String
  deriving DecidableEq

/-- `KubernetesContainerStartFailure.describe` -/
def ContainerStartFailure.describe (failure : ContainerStartFailure) (jobName : String) : String :=
  let detail := if failure.message = "" then "" else ": " ++ failure.message
  boundedText ("Kubernetes Job " ++ jobName ++ " Pod " ++ failure.podName ++ " container "
    ++ failure.containerName ++ " could not pull its image: " ++ failure.reason ++ detail) 500

/-- The failure of a container that waits for its image. -/
def pullFailure? (pod : PodStatus) (status : ContainerStatus) : Option ContainerStartFailure :=
  if imagePullFailureReasons.contains status.waitingReason then
    some ⟨pod.name, status.name.getD "unknown", status.waitingReason,
      boundedMessage status.waitingMessage⟩
  else
    none

/-- `find_image_pull_failure` -/
def findImagePullFailure (reader : PodReader) (jobName : String) : Option ContainerStartFailure :=
  ((reader.pods jobName).getD []).findSome? (fun pod =>
    (pod.initContainers ++ pod.containers).findSome? (pullFailure? pod))

/-! ### Logs -/

variable (host : DockerHost) (reader : PodReader)

/-- `DEFAULT_KUBERNETES_LOG_CAPTURE_BYTES` -/
def defaultLogCaptureBytes : ℕ := 64 * 1024

/-- The text of a log. -/
def logText : RedisValue → String
  | .bytes value => host.decodeReplacing value
  | .text value => value

/-- The text about a log that cannot be read. -/
def unreadableLog (container error : String) : String :=
  boundedText ("unable to read " ++ container ++ " logs: " ++ error) 500

/-- `read_bounded_kubernetes_pod_log` -/
def readBoundedPodLog (podName container : String) : String :=
  match reader.log podName container defaultLogCaptureBytes with
  | .ok value => logText host value
  | .error error => unreadableLog container error

/-- What is kept of the log of a container. -/
structure PodLog where
  text : String
  truncated : Bool
  observedBytes : ℕ
  readFailed : Bool
  deriving DecidableEq

/-- `_read_kubernetes_pod_log_capture` -/
def readPodLogCapture (podName container : String) (maxBytes : ℕ) : PodLog :=
  match reader.log podName container (maxBytes + 1) with
  | .error error =>
      let message := unreadableLog container error
      ⟨message, false, message.utf8ByteSize, true⟩
  | .ok value =>
      let (text, truncated, observedBytes) := tailOfText host (logText host value) maxBytes
      ⟨text, truncated, observedBytes, false⟩

/-- `read_kubernetes_worker_log_excerpt` -/
def workerLogExcerpt (jobName : String) : String :=
  match reader.pods jobName with
  | none | some [] => "no worker pod found"
  | some (pod :: _) => boundedText (readBoundedPodLog host reader pod.name "worker") 500

/-- `_container_exit_code` -/
def containerExitCode (pod : PodStatus) (containerName : String) : Option ℤ :=
  (pod.containers.find? (fun status => status.name = some containerName)).bind
    ContainerStatus.exitCode

/-! ### Observations -/

/-- A worker result with the diagnostics of its Pod. -/
structure KubernetesRunObservation where
  result : WorkerResult
  jobCreated : Bool := false
  resultReceived : Bool := false
  resultEnvelopeValid : Bool := false
  exitCode : Option ℤ := none
  logs : List (String × PodLog) := []

/-- `capture_kubernetes_pod_diagnostics` -/
def capturePodDiagnostics (jobName : String) (observation : KubernetesRunObservation)
    (workerLogMaxBytes : ℕ) : KubernetesRunObservation :=
  match reader.pods jobName with
  | none | some [] => observation
  | some (pod :: _) =>
      let workerLog := readPodLogCapture host reader pod.name "worker"
        (min defaultLogCaptureBytes workerLogMaxBytes)
      let forwarderLog := readBoundedPodLog host reader pod.name "result-forwarder"
      { observation with
        exitCode := containerExitCode pod "worker"
        logs := [("worker", workerLog),
          ("result-forwarder", ⟨forwarderLog, false, forwarderLog.utf8ByteSize, false⟩)] }

/-! ### Bounds -/

theorem length_boundedText {value : String} {limit : ℕ} (hlimit : 3 ≤ limit) :
  (boundedText value limit).length ≤ limit
  := by
  unfold boundedText
  split
  case isTrue h => exact h
  case isFalse h =>
    rw [String.length_append, String.length_ofList, List.length_take, String.length_toList,
      show "...".length = 3 from rfl]
    omega

/-- A failure that is found is the one of the first container with a known reason. -/
theorem findImagePullFailure_eq_some {reader : PodReader} {jobName : String}
    {failure : ContainerStartFailure} (h : findImagePullFailure reader jobName = some failure) :
  ∃ pods pod status, reader.pods jobName = some pods ∧ pod ∈ pods ∧
    status ∈ pod.initContainers ++ pod.containers ∧
    status.waitingReason ∈ imagePullFailureReasons ∧ failure.reason = status.waitingReason ∧
    failure.message.length ≤ 400
  := by
  obtain ⟨pod, hpod, hfound⟩ := List.exists_of_findSome?_eq_some h
  obtain ⟨status, hstatus, hfailure⟩ := List.exists_of_findSome?_eq_some hfound
  cases hpods : reader.pods jobName with
  | none =>
      rw [hpods] at hpod
      cases hpod
  | some pods =>
      rw [hpods] at hpod
      unfold pullFailure? at hfailure
      split at hfailure
      case isFalse => cases hfailure
      case isTrue hreason =>
        rw [List.contains_iff_mem] at hreason
        cases hfailure
        exact ⟨pods, pod, status, rfl, hpod, hstatus, hreason, rfl, length_boundedText (by omega)⟩

end GoblinKing
