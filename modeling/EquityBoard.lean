import EquityBoard.Board
import EquityBoard.Calendar
import EquityBoard.Chance
import EquityBoard.Chart.Animation
import EquityBoard.Chart.Document
import EquityBoard.Chart.Frame
import EquityBoard.Chart.Label
import EquityBoard.Chart.Layout
import EquityBoard.Chart.Legend
import EquityBoard.Chart.Panel
import EquityBoard.Chat.Completion
import EquityBoard.Chat.Conversation
import EquityBoard.Chat.Decision
import EquityBoard.Chat.Markdown
import EquityBoard.Chat.Rendition
import EquityBoard.Chat.Service
import EquityBoard.Command
import EquityBoard.Debounce
import EquityBoard.Decimal.Checked
import EquityBoard.Decimal.Dyadic
import EquityBoard.Decimal.Fixed
import EquityBoard.Decimal.Numeral
import EquityBoard.Decimal.Reading
import EquityBoard.Decimal.Rounding
import EquityBoard.Decimal.Shortest
import EquityBoard.Environment
import EquityBoard.Feed.Batch
import EquityBoard.Feed.Client
import EquityBoard.Feed.Recording
import EquityBoard.Feed.Retry
import EquityBoard.Http
import EquityBoard.Json.Basic
import EquityBoard.Json.Printer
import EquityBoard.Json.Quoted
import EquityBoard.Json.Reader
import EquityBoard.Json.Written
import EquityBoard.KeyMap
import EquityBoard.Log.BoardEvents
import EquityBoard.Log.Event
import EquityBoard.Log.Record
import EquityBoard.Main
import EquityBoard.Proofs.Board.CardSwitches
import EquityBoard.Proofs.Board.CommandLines
import EquityBoard.Proofs.Board.Runs
import EquityBoard.Proofs.Chart.AnimatedFrames
import EquityBoard.Proofs.Chart.CoherentCharts
import EquityBoard.Proofs.Chart.FailedPolls
import EquityBoard.Proofs.Chart.FrameHistory
import EquityBoard.Proofs.Chart.FreshStart
import EquityBoard.Proofs.Chart.GroupedDigits
import EquityBoard.Proofs.Chart.LegendClicks
import EquityBoard.Proofs.Chart.LineEnds
import EquityBoard.Proofs.Chart.PanelRuns
import EquityBoard.Proofs.Chart.QuietPeriods
import EquityBoard.Proofs.Chart.RepeatedFrames
import EquityBoard.Proofs.Chart.RepeatedPolls
import EquityBoard.Proofs.Chart.ValueLabels
import EquityBoard.Proofs.Chat.AutomaticJobs
import EquityBoard.Proofs.Chat.BookEntries
import EquityBoard.Proofs.Chat.CardKeys
import EquityBoard.Proofs.Chat.CardOrder
import EquityBoard.Proofs.Chat.CardTimes
import EquityBoard.Proofs.Chat.FailedRequests
import EquityBoard.Proofs.Chat.FilterChoices
import EquityBoard.Proofs.Chat.JobRuns
import EquityBoard.Proofs.Chat.LeftoverEscapes
import EquityBoard.Proofs.Chat.ListedCards
import EquityBoard.Proofs.Chat.QuotedTexts
import EquityBoard.Proofs.Chat.SharedKeys
import EquityBoard.Proofs.Decimal.ExactValue
import EquityBoard.Proofs.Decimal.FixedPlaces
import EquityBoard.Proofs.Decimal.SameNumber
import EquityBoard.Proofs.Decimal.WholeNumbers
import EquityBoard.Proofs.Feed.AppendedRecordings
import EquityBoard.Proofs.Feed.CountedAttempts
import EquityBoard.Proofs.Feed.ReadBatches
import EquityBoard.Proofs.Feed.RepeatedAttempts
import EquityBoard.Proofs.Feed.ReplayedPolls
import EquityBoard.Proofs.Feed.Responses
import EquityBoard.Proofs.Json.QuotedText
import EquityBoard.Proofs.Log.RecordFields
import EquityBoard.Proofs.Series.Batches
import EquityBoard.Proofs.Series.Cells
import EquityBoard.Proofs.Series.Coherence
import EquityBoard.Proofs.Series.Delivery
import EquityBoard.Proofs.Series.ExactReports
import EquityBoard.Proofs.Series.History
import EquityBoard.Proofs.Series.KeptPositions
import EquityBoard.Proofs.Series.PercentEpochs
import EquityBoard.Proofs.Series.PercentView
import EquityBoard.Proofs.Series.RangeTexts
import EquityBoard.Proofs.Series.RepeatedReports
import EquityBoard.Proofs.Series.Reports
import EquityBoard.Proofs.Series.Runs
import EquityBoard.Proofs.Series.Thinning
import EquityBoard.Proofs.Series.ViewRows
import EquityBoard.Proofs.Series.WireTimes
import EquityBoard.Proofs.StableOrder
import EquityBoard.Proofs.Text.Words
import EquityBoard.Replay
import EquityBoard.Series.ModelSet
import EquityBoard.Series.PercentBase
import EquityBoard.Series.Point
import EquityBoard.Series.Selection
import EquityBoard.Series.Store
import EquityBoard.Series.View
import EquityBoard.Settings
import EquityBoard.Sha256
import EquityBoard.Text.Blank
import EquityBoard.Text.InQuotes
import EquityBoard.Text.UpperCase
import EquityBoard.Url.Address
import EquityBoard.Url.Host
import EquityBoard.Url.Percent
import EquityBoard.Url.Punycode
