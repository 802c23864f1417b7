import Shooting.Linear.CholeskySolver
import Shooting.Problem.Report
import Shooting.Proofs.Solver.Descent
import Shooting.Proofs.Solver.Feasibility
import Shooting.Sampling
import Shooting.Solver.Solve
import Shooting.Solver.Summary
import Shooting.StateSpace.Check
import Shooting.Proofs.Exact.PositiveDefinite
import Shooting.Proofs.Exact.Quadratic
import Shooting.Proofs.Exact.Optimality
import Shooting.Proofs.Exact.Lqr
import Shooting.Proofs.Exact.Reduction
import Shooting.Proofs.Solver.AtOnce
import Shooting.Proofs.Exact.Stationary
import Shooting.Proofs.Solver.Attribution
import Shooting.Proofs.Exact.Exposure
import Shooting.Proofs.Double.Rank
import Shooting.Proofs.Double.Rounding
import Shooting.Proofs.Double.Scaling
import Shooting.Proofs.OrderedScalar
import Shooting.Proofs.Solver.Ledger
import Shooting.Proofs.Solver.Regularization
import Shooting.Proofs.Solver.Succession
import Shooting.Proofs.Double.Halving
import Shooting.Proofs.Solver.Independence
import Shooting.Proofs.Solver.History
import Shooting.Proofs.Solver.Accounting
import Shooting.Proofs.Solver.Resumption
import Shooting.Proofs.Exact.Resumption
import Shooting.Proofs.Exact.Contraction
import Shooting.Proofs.Solver.Description
import Shooting.Proofs.Solver.Refusal
import Shooting.Proofs.Solver.Finiteness
import Shooting.Proofs.Solver.ErrorPath
import Shooting.Proofs.Solver.Search
import Shooting.Proofs.Exact.Costate
import Shooting.Proofs.Exact.FullStep
import Shooting.Proofs.Exact.Convex
import Shooting.Proofs.Exact.Residual
import Shooting.Proofs.Exact.OneStep
import Shooting.Proofs.Exact.ConvexPass
import Shooting.Proofs.Exact.Saturation
import Shooting.Proofs.Loose.Algebra
import Shooting.Proofs.Loose.Data
import Shooting.Proofs.Loose.Differences
import Shooting.Proofs.Loose.Models
import Shooting.Proofs.Loose.Problem
import Shooting.Proofs.Loose.Stagewise
import Shooting.Proofs.Loose.Policy
import Shooting.Proofs.Loose.Trial
import Shooting.Proofs.Loose.Solve
import Shooting.Proofs.Loose.Sizes
import Shooting.Proofs.Loose.Session
import Shooting.Proofs.Loose.Writing
import Shooting.Proofs.Double.Validation
import Shooting.Proofs.Double.Signs
import Shooting.Proofs.Rollout
import Shooting.Proofs.Exact.GapFree
import Shooting.Proofs.Exact.Symmetry
import Shooting.Proofs.Exact.Differences
import Shooting.Proofs.Exact.Derivatives
import Shooting.Proofs.Exact.QuasiStatic
import Shooting.Proofs.Exact.PseudoInverse
import Shooting.Proofs.Exact.Revolute
import Shooting.Proofs.Exact.CholeskySolver
import Shooting.Proofs.WarmStart
import Shooting.Proofs.LengthScalar
import Shooting.Proofs.Solver.LongestGap
import Shooting.Proofs.Loose.Filling
import Shooting.Proofs.Loose.WriteSets
import Shooting.Proofs.Loose.Sweep
import Shooting.Proofs.Loose.Order
import Shooting.Proofs.Loose.Candidate
