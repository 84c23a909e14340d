/-
The command with which the daemon looks up a container.

`resolve_container_id` puts the namespace and the pod of an arm into a line for the shell as they are.
The line is the intended command exactly if the shell takes both for themselves
(`kubectlCommand_iff`); other values reach it from any request (`pod_injected`).
-/

import Mcoz.Daemon.Arm
import Mcoz.Lib.Shell

set_option autoImplicit false

namespace Mcoz.Daemon

open Word Text Shell

/-! ### The command -/

/-- The template of what `kubectl` is to print: a line with the name and the id of each container. -/
def containerColumns : Bytes :=
  ascii "\x7brange .status.containerStatuses[*]\x7d\x7b.name\x7d\x7b\"|\"\x7d" ++
    ascii "\x7b.containerID\x7d\x7b\"\\n\"\x7d\x7bend\x7d"

/-- The end of the command: the template in single quotes, and the redirection. -/
def kubectlOptions : Bytes :=
  ascii "-o jsonpath='" ++ containerColumns ++ ascii "' 2>/dev/null"

/-- The `cmd` of `resolve_container_id`. -/
def kubectlCommand (ns pod : Bytes) : Bytes :=
  ascii "kubectl get pod " ++ pod ++ ascii " -n " ++ ns ++ ascii " " ++ kubectlOptions

/-- The line that the shell gets from `popen(cmd.c_str(), "r")`. -/
def kubectlLine (ns pod : Bytes) : Bytes :=
  cString (kubectlCommand ns pod)

/-- The command that is meant. -/
def kubectlGetPod (ns pod : Bytes) : List Item :=
  [.word (ascii "kubectl"), .word (ascii "get"), .word (ascii "pod"), .word pod,
    .word (ascii "-n"), .word ns, .word (ascii "-o"), .word (ascii "jsonpath=" ++ containerColumns),
    .redirect (ascii "2") (ascii ">") (ascii "/dev/null")]

/-! ### Values that stand for themselves -/

/-- The shell gets the value whole and takes it for itself. -/
def StandsForItself (value : Bytes) : Prop :=
  Inert value ∧ (0 : UInt8) ∉ value

instance (value : Bytes) : Decidable (StandsForItself value) :=
  inferInstanceAs (Decidable (_ ∧ _))

section Line

variable {ns pod : Bytes}

/-- The line word by word. -/
theorem kubectlCommand_eq (ns pod : Bytes) : kubectlCommand ns pod =
    ascii "kubectl" ++ 32 :: (ascii "get" ++ 32 :: (ascii "pod" ++ 32 :: (pod ++ 32 ::
      (ascii "-n" ++ 32 :: (ns ++ 32 :: kubectlOptions))))) := by
  simp only [kubectlCommand, List.append_assoc]
  rfl

theorem kubectlOptions_command :
    simpleCommand kubectlOptions = some [.word (ascii "-o"),
      .word (ascii "jsonpath=" ++ containerColumns),
      .redirect (ascii "2") (ascii ">") (ascii "/dev/null")] := by
  decide +kernel

/-- The words before the pod. -/
theorem simpleCommand_getPod {rest : Bytes} {later : List Item} :
    simpleCommand (ascii "kubectl" ++ 32 :: (ascii "get" ++ 32 :: (ascii "pod" ++ 32 :: rest))) =
        some (.word (ascii "kubectl") :: .word (ascii "get") :: .word (ascii "pod") :: later) ↔
      simpleCommand rest = some later := by
  rw [simpleCommand_inert (by decide) (by decide), simpleCommand_inert (by decide) (by decide),
    simpleCommand_inert (by decide) (by decide)]

/-- A line without NUL bytes is the intended command exactly if both values are inert. -/
theorem simpleCommand_kubectl (podGiven : pod ≠ []) (nsGiven : ns ≠ []) :
    simpleCommand (kubectlCommand ns pod) = some (kubectlGetPod ns pod) ↔ Inert pod ∧ Inert ns := by
  have options : kubectlOptions = 45 :: kubectlOptions.tail := rfl
  have option : ascii "-n" = 45 :: ascii "n" := rfl
  rw [kubectlCommand_eq, kubectlGetPod, simpleCommand_getPod, option, List.cons_append,
    simpleCommand_word_iff podGiven, ← List.cons_append, ← option,
    simpleCommand_inert (by decide) (by decide), options, simpleCommand_word_iff nsGiven, ← options,
    kubectlOptions_command]
  simp

/-- The line that the shell gets. -/
theorem kubectlLine_iff (podGiven : pod ≠ []) (nsGiven : ns ≠ []) :
    simpleCommand (kubectlLine ns pod) = some (kubectlGetPod ns pod) ↔
      StandsForItself pod ∧ StandsForItself ns := by
  have getPod : ∀ rest, cString (ascii "kubectl" ++ 32 :: (ascii "get" ++ 32 :: (ascii "pod" ++
      32 :: rest))) = ascii "kubectl" ++ 32 :: (ascii "get" ++ 32 :: (ascii "pod" ++
      32 :: cString rest)) := fun _ => rfl
  have option : ∀ rest, cString (32 :: (ascii "-n" ++ 32 :: rest)) =
      32 :: (ascii "-n" ++ 32 :: cString rest) := fun _ => rfl
  by_cases podCut : (0 : UInt8) ∈ pod
  · refine iff_of_false ?_ fun both => both.1.2 podCut
    rw [kubectlLine, kubectlCommand_eq, getPod, (cString_cut podCut _).1, kubectlGetPod,
      simpleCommand_getPod]
    exact simpleCommand_short (cString_cut podCut []).2
  · by_cases nsCut : (0 : UInt8) ∈ ns
    · refine iff_of_false ?_ fun both => both.2.2 nsCut
      rw [kubectlLine, kubectlCommand_eq, getPod, cString_append podCut, option,
        (cString_cut nsCut _).1, kubectlGetPod, simpleCommand_getPod]
      intro command
      change simpleCommand (pod ++ 32 :: 45 :: (ascii "n" ++ 32 :: cString ns)) = _ at command
      have later := ((simpleCommand_word_iff podGiven).mp command).2
      change simpleCommand (ascii "-n" ++ 32 :: cString ns) = _ at later
      exact simpleCommand_short (cString_cut nsCut []).2
        ((simpleCommand_inert (by decide) (by decide)).mp later)
    · have whole : kubectlLine ns pod = kubectlCommand ns pod := by
        rw [kubectlLine, kubectlCommand_eq, getPod, cString_append podCut, option,
          cString_append nsCut]
        rfl
      rw [whole, simpleCommand_kubectl podGiven nsGiven, StandsForItself, StandsForItself]
      simp only [podCut, nsCut, not_false_eq_true, and_true]

end Line

/-- An accepted request names a namespace and a pod. -/
theorem named_of_accepted {q : Params} {arm : RequestArmRequest}
    (accepted : parseRequestArmFromMap q = .ok arm) : arm.ns ≠ [] ∧ arm.pod ≠ [] := by
  revert accepted
  fun_cases parseRequestArmFromMap q with
  | case1 => simp
  | case2 => simp
  | case3 => simp
  | case4 delayNs _ count _ parsed named =>
      intro same
      obtain rfl := Except.ok.inj same
      exact not_or.mp named

/-- For a request that is accepted, the shell runs exactly the command that is meant, with the request's
pod and namespace as one word each, exactly if both stand for themselves: every other value changes
the command. -/
theorem kubectlCommand_iff {q : Params} {arm : RequestArmRequest}
    (accepted : parseRequestArmFromMap q = .ok arm) :
    simpleCommand (kubectlLine arm.ns arm.pod) = some (kubectlGetPod arm.ns arm.pod) ↔
      StandsForItself arm.pod ∧ StandsForItself arm.ns :=
  kubectlLine_iff (named_of_accepted accepted).2 (named_of_accepted accepted).1

/-- A request that names both, without numbers, is accepted. -/
theorem accepted_of_named {q : Params} {ns pod : Bytes}
    (noDelay : mapGetOr q (ascii "delay_ns") (ascii "delayNs") = [])
    (noCount : mapGet q (ascii "count") = [])
    (ns_eq : mapGetOr q (ascii "namespace") (ascii "ns") = ns) (pod_eq : mapGet q (ascii "pod") = pod)
    (named : ¬ (ns = [] ∨ pod = [])) :
    ∃ arm, parseRequestArmFromMap q = .ok arm ∧ arm.ns = ns ∧ arm.pod = pod := by
  refine ⟨{
    ns := ns
    pod := pod
    container := if mapGet q (ascii "container") = [] then ascii "app"
      else mapGet q (ascii "container")
    source := mapGetOr q (ascii "source") (ascii "source_id")
    delayNs := 0
    count := 1 }, ?_, rfl, rfl⟩
  rw [parseRequestArmFromMap, noDelay, noCount, parseOr, if_pos rfl, parseOr, if_pos rfl]
  simp only [ns_eq, pod_eq, if_neg named]

/-- A request with a plain pod is accepted, and its command is the one that is meant. -/
theorem kubectlCommand_iff_plain : ∃ arm,
    parseRequestArmFromMap (parseQueryMap (ascii "namespace=default&pod=web-0")) = .ok arm ∧
      simpleCommand (kubectlLine arm.ns arm.pod) = some (kubectlGetPod arm.ns arm.pod) := by
  obtain ⟨arm, accepted, ns_eq, pod_eq⟩ := @accepted_of_named
    (parseQueryMap (ascii "namespace=default&pod=web-0")) (ascii "default") (ascii "web-0")
    (by decide +kernel) (by decide +kernel) (by decide +kernel) (by decide +kernel) (by decide)
  refine ⟨arm, accepted, (kubectlCommand_iff accepted).mpr ?_⟩
  rw [ns_eq, pod_eq]
  decide

/-- A request for `/arm` whose pod ends the command and begins another. -/
def rebootRequest : Bytes :=
  ascii "GET /arm?namespace=default&pod=x%3Breboot HTTP/1.1\r\n\r\n"

/-- The pod of the request becomes a second command. -/
theorem pod_injected : ∃ arm, armRoute rebootRequest = .arm (.ok arm) ∧
    arm.pod = ascii "x;reboot" ∧
    (tokens (kubectlLine arm.ns arm.pod)).map (List.take 6) = some
      [.word (unquoted (ascii "kubectl")), .word (unquoted (ascii "get")),
        .word (unquoted (ascii "pod")), .word (unquoted (ascii "x")), .operator (ascii ";"),
        .word (unquoted (ascii "reboot"))] ∧
    simpleCommand (kubectlLine arm.ns arm.pod) ≠ some (kubectlGetPod arm.ns arm.pod) := by
  obtain ⟨arm, accepted, ns_eq, pod_eq⟩ := @accepted_of_named
    (requestParams rebootRequest (ascii "namespace=default&pod=x%3Breboot")) (ascii "default")
    (ascii "x;reboot") (by decide +kernel) (by decide +kernel) (by decide +kernel)
    (by decide +kernel) (by decide)
  have method : parseHttpMethodPath rebootRequest =
      some (ascii "GET", ascii "/arm?namespace=default&pod=x%3Breboot") := by
    decide +kernel
  have path : splitPathQuery (ascii "/arm?namespace=default&pod=x%3Breboot") =
      (ascii "/arm", ascii "namespace=default&pod=x%3Breboot") := by
    decide +kernel
  refine ⟨arm, ?_, pod_eq, ?_, ?_⟩
  · rw [armRoute, method]
    simp only [path, if_true, accepted]
  · rw [ns_eq, pod_eq]
    decide +kernel
  · rw [ns_eq, pod_eq]
    decide +kernel

end Mcoz.Daemon
