import Arithmancy.Digest.Session
import Arithmancy.Game.Move
import Arithmancy.Main
import Arithmancy.Number.Exact
import Arithmancy.Proofs.Encounter.Foresight
import Arithmancy.Proofs.Encounter.Placement
import Arithmancy.Proofs.Expression.TreeEvaluation
import Arithmancy.Proofs.Game.HealthEvents
import Arithmancy.Proofs.Game.RunOver
import Arithmancy.Proofs.Game.TurnReport
import Arithmancy.Proofs.Encounter.Spoils
import Arithmancy.Proofs.Game.Chronicle
import Arithmancy.Proofs.Encounter.Remainder
import Arithmancy.Proofs.Encounter.Opening
import Arithmancy.Proofs.Game.MonsterHealth
import Arithmancy.Proofs.Number.Value
import Arithmancy.Proofs.Number.Arithmetic
import Arithmancy.Proofs.Encounter.Target
import Arithmancy.Proofs.Game.OpenEncounter
import Arithmancy.Proofs.Encounter.Multipliers
import Arithmancy.Proofs.Game.RunBooks
import Arithmancy.Proofs.Game.Endings
import Arithmancy.Proofs.Condition.Selection
import Arithmancy.Proofs.Encounter.Conservation
import Arithmancy.Proofs.Game.RandomStream
import Arithmancy.Proofs.Game.Independence
import Arithmancy.Proofs.Digest.Reading
import Arithmancy.Proofs.Digest.Unpacking
import Arithmancy.Proofs.Console.Responses
import Arithmancy.Proofs.Console.Rounds
import Arithmancy.Proofs.Game.NextEncounter
import Arithmancy.Proofs.Console.Robustness
import Arithmancy.Proofs.Console.Telling
import Arithmancy.Proofs.Game.Warnings
import Arithmancy.Proofs.Relic.Evaluation
import Arithmancy.Proofs.Encounter.Verdicts
import Arithmancy.Proofs.Game.ExactHits
import Arithmancy.Proofs.Game.LethalOutcomes
import Arithmancy.Proofs.Game.OverkillGuards
import Arithmancy.Proofs.Condition.RuleBook
import Arithmancy.Proofs.Chance.Weights
import Arithmancy.Proofs.Console.Holding
import Arithmancy.Proofs.Encounter.DecimalTargets
import Arithmancy.Proofs.Game.FaithfulTrays
import Arithmancy.Proofs.Game.Rerolls
import Arithmancy.Proofs.Game.Rescues
import Arithmancy.Proofs.Game.DiceCount
import Arithmancy.Proofs.Relic.Bystanders
import Arithmancy.Proofs.Game.GoldWithoutKill
import Arithmancy.Proofs.Chance.FairShuffle
import Arithmancy.Proofs.Game.FirstHits
import Arithmancy.Proofs.Chance.FairDice
import Arithmancy.Proofs.Number.NearestPrime
import Arithmancy.Proofs.Encounter.Rearrangement
import Arithmancy.Proofs.Expression.Concatenation
import Arithmancy.Proofs.Expression.FiniteResults
import Arithmancy.Proofs.Expression.PostfixTrees
import Arithmancy.Proofs.Encounter.Primes
