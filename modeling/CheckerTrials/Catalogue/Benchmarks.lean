import CheckerTrials.Catalogue.Descriptor

/-!
# The benchmark sets

Three sets of models are run: Markov decision processes with reachability rewards, continuous-time
decision processes, and older models whose mean payoff is known.  The tables are data; nothing is
computed from them here.
-/

set_option autoImplicit false

namespace CheckerTrials

/-- A set of benchmark models. -/
inductive BenchmarkSet
  /-- Decision processes with reachability rewards. -/
  | mdp
  /-- Continuous-time decision processes. -/
  | ctmdp
  /-- Mean-payoff models with known values. -/
  | cav22
  deriving DecidableEq, Repr

namespace BenchmarkSet

/-- All sets, in the order in which the tables are read. -/
def all : List BenchmarkSet := [.mdp, .ctmdp, .cav22]

/-- The name of a set. -/
def name : BenchmarkSet → String
  | .mdp => "mdp"
  | .ctmdp => "ctmdp"
  | .cav22 => "cav22"

/-- Trials per model unless something else is asked for. -/
def defaultIterations : BenchmarkSet → Nat
  | .mdp => 1
  | .ctmdp => 1
  | .cav22 => 5

/-- Arguments that most sets share: how precisely and how long to sample. -/
def sampling (maxSuccessors : Option String) : List String :=
  ["--precision", "0.01", "--revisitThreshold", "6", "--errorTolerance", "0.1"]
    ++ Descriptor.optionArguments "--maxSuccessors" maxSuccessors ++ ["--iterSample", "10000"]

/-- A model of the first set. -/
def mdpModel (file : String) (pMin : Float) (constants : Option String) (rewards : String) :
    Descriptor :=
  { Descriptor.plain ("data/mdpReachRewardModels/" ++ file) 1 pMin with
    constants, rewardModule := some rewards }

/-- A model of the second set. -/
def ctmdpModel (name : String) (pMin : Float) (maxSuccessors : String) : Descriptor :=
  { Descriptor.plain ("data/ctmdpModels/" ++ name ++ ".prism") 1 pMin with
    extra := sampling (some maxSuccessors) }

/-- A model of the third set. -/
def knownModel (name : String) (maxReward pMin : Float) (maxSuccessors : Option String)
    (constants rewards : Option String) : Descriptor :=
  { Descriptor.plain ("data/models/" ++ name ++ ".prism") maxReward pMin with
    constants, rewardModule := rewards, extra := sampling maxSuccessors }

/-- The models of a set. -/
def descriptors : BenchmarkSet → List Descriptor
  | .mdp => [
      mdpModel "consensus/consensus.2-rewards.prism" 0.1083 (some "K=2") "disagree",
      mdpModel "csma/csma.2-2-rewards.prism" 0.25 none "some_before",
      mdpModel "pacman/pacman-rewards.prism" 0.08 (some "MAXSTEPS=5") "crash",
      mdpModel "pnueli-zuck-3/pnueli-zuck.3-rewards.prism" 0.5 none "live",
      mdpModel "rabin-3/rabin.3-rewards.prism" 0.03125 none "one_critical",
      mdpModel "wlan-0/wlan.0-rewards.prism" 0.0625 (some "COL=0") "sent",
      mdpModel "zeroconf/zeroconf-rewards.prism" 0.0002 (some "N=40,K=10,reset=false") "correct_max"]
  | .ctmdp => [
      ctmdpModel "DynamicPM-tt_3_qs_2_sctmdp" 0.1516 "5",
      ctmdpModel "ErlangStages-k500_r10" 0.05 "3",
      ctmdpModel "PollingSystem-jt1_qs1_sctmdp" 0.107 "3",
      ctmdpModel "PollingSystem-jt1_qs4_sctmdp" 0.083 "5",
      ctmdpModel "PollingSystem-jt1_qs7_sctmdp" 0.083 "5",
      ctmdpModel "QueuingSystem-lqs_1_rqs_1_jt_2_sctmdp" 0.0265 "7",
      ctmdpModel "SJS-procn_2_jobn_2_sctmdp" 0.33 "2",
      ctmdpModel "SJS-procn_2_jobn_6_sctmdp" 0.05 "3",
      ctmdpModel "SJS-procn_6_jobn_2_sctmdp" 0.33 "2",
      ctmdpModel "toy" 0.11 "2"]
  | .cav22 => [
      knownModel "virus" 1 0.1 (some "2") none none,
      knownModel "cs_nfail3" 1 0.1 (some "2") none none,
      knownModel "investor" 1 0.016 (some "8") none none,
      knownModel "zeroconf_rewards" 1 0.0002 (some "6") (some "N=40,K=10,reset=false") (some "reach"),
      knownModel "sensors" 1 0.05 (some "2") (some "K=3") none,
      knownModel "consensus.2" 1 0.5 (some "2") (some "K=2") (some "custom"),
      knownModel "ij.10" 1 0.5 (some "2") none none,
      knownModel "ij.3" 1 0.5 (some "2") none none,
      knownModel "pacman" 1 0.08 (some "6") (some "MAXSTEPS=5") none,
      knownModel "wlan.0" 1 0.0625 (some "16") (some "COL=0") (some "default"),
      knownModel "blackjack" 1.5 0.076 (some "10") none none,
      knownModel "counter" 10 0.333 (some "2") none none,
      knownModel "recycling" 2 0.199 (some "2") none none,
      knownModel "busyRing4" 1 0.125 none none none,
      knownModel "busyRingMC4" 1 0.0625 none none none]

end BenchmarkSet

/-- The known mean payoffs of models. -/
def knownValues : List (String × Float) := [
  ("zeroconf_rewards", 1),
  ("sensors", 0.333),
  ("investor", 0.95),
  ("cs_nfail3", 0.333),
  ("consensus.2", 0.1083),
  ("ij.10", 1),
  ("ij.3", 1),
  ("pacman", 0.5511),
  ("pnueli-zuck.3", 1),
  ("wlan.0", 1),
  ("virus", 0),
  ("phil-nofair3", 2.4286),
  ("blackjack", 0),
  ("counter", 5),
  ("recycling", 1.454),
  ("busyRing4", 1),
  ("busyRingMC4", 1),
  ("DynamicPM-tt_3_qs_2_sctmdp", 1),
  ("ErlangStages-k500_r10", 1),
  ("PollingSystem-jt1_qs1_sctmdp", 0.922),
  ("PollingSystem-jt1_qs4_sctmdp", 0.999),
  ("PollingSystem-jt1_qs7_sctmdp", 0.999),
  ("QueuingSystem-lqs_1_rqs_1_jt_2_sctmdp", 0.8783),
  ("SJS-procn_2_jobn_2_sctmdp", 1),
  ("SJS-procn_2_jobn_6_sctmdp", 0.999),
  ("SJS-procn_6_jobn_2_sctmdp", 1),
  ("toy", 1)]

end CheckerTrials
