import LoadSweep.Main
import LoadSweep.Proofs.Chart.Metrics
import LoadSweep.Proofs.Chart.Rates
import LoadSweep.Proofs.Chart.Warnings
import LoadSweep.Proofs.Session
import LoadSweep.Proofs.Table.Grammar
import LoadSweep.Proofs.Chart.Panel
import LoadSweep.Proofs.Table.Continuation
import LoadSweep.Proofs.Decimal.Digits
import LoadSweep.Proofs.Decimal.Whole
import LoadSweep.Proofs.Sample.Lines
import LoadSweep.Proofs.Files
import LoadSweep.Proofs.Sample.Rows
import LoadSweep.Proofs.Sample.Written
import LoadSweep.Proofs.Sample.Charts
import LoadSweep.Proofs.Headless
import LoadSweep.Proofs.Double.Order
import LoadSweep.Proofs.Mean.Steady
import LoadSweep.Proofs.Table.Range
import LoadSweep.Proofs.Chart.Report
import LoadSweep.Proofs.Indexed.Chart
import LoadSweep.Proofs.Settings.Shape
import LoadSweep.Proofs.Table.Position
import LoadSweep.Proofs.Chart.Divergence
import LoadSweep.Proofs.Chart.Layout
import LoadSweep.Proofs.Chart.Depicted
import LoadSweep.Proofs.Mean.Exact
import LoadSweep.Proofs.Table.Exact
import LoadSweep.Proofs.Table.Weights
import LoadSweep.Proofs.Decimal.Shortest
import LoadSweep.Proofs.Decimal.ReadBack
import LoadSweep.Proofs.Key
import LoadSweep.Proofs.Chart.KeyTexts
import LoadSweep.Proofs.Sample.Stream
import LoadSweep.Proofs.Settings.Paths
import LoadSweep.Proofs.Key.Order
import LoadSweep.Proofs.Decimal.Recovered
import LoadSweep.Proofs.Decimal.Expansion
import LoadSweep.Proofs.Chart.Labels
